import Mathlib.Data.List.Nodup
import Backplane.Registry.Book
/-!
# `Backplane.Proofs.Registry.Book`: what operations do to the registrations of one kind

A book is seen through two questions: how the registration of a ticket is used if it is present
(`usage?`), and how it is used if a reference to it may still be given back (`held?`).  Each
operation of a well-formed book changes one registration at most, so its effect on either question
is one equation.

A book is the `InterfaceRegistry`, or all of the `AdvisorRegistry`.
-/
namespace Backplane

namespace Usage

/-- One reference more. -/
def raise (u : Usage) : Usage := { u with outstanding := u.outstanding + 1 }

/-- One reference less, if there is one. -/
def lower (u : Usage) : Usage := { u with outstanding := u.outstanding - 1 }

/-- Out of the sight of lookups. -/
def hide (u : Usage) : Usage := { u with retired := true }

theorem lower_raise (u : Usage) : u.raise.lower = u := rfl

theorem acquire_eq {u v : Usage} (h : u.acquire = some v) : u.retired = false ∧ v = u.raise := by
  rw [acquire] at h
  split at h
  · simp at h
  · next hr => exact ⟨by simpa using hr, (Option.some.inj h).symm⟩

theorem release_eq {u : Usage} (h : 0 < u.outstanding) : u.release = some u.lower := by
  obtain ⟨n, hn⟩ := Nat.exists_eq_succ_of_ne_zero (Nat.ne_of_gt h)
  simp [release, lower, hn]

theorem retire_eq {u : Usage} :
    u.retire = if u.outstanding = 0 then .ok u.hide else .error u.outstanding := by
  rw [retire]
  split <;> simp [*, hide]

end Usage

namespace Registration

variable {ρ : Type}

@[simp] theorem isNamed_iff {e : Registration ρ} {c : Capability} {n : Nat} :
    e.isNamed c n = true ↔ e.contract.capability = c ∧ e.serial = n := by
  simp [isNamed]

/-- A registration whose usage is revised; what becomes of it may depend on what a ticket says. -/
def revise (f : Capability → Nat → Usage → Usage) (e : Registration ρ) : Registration ρ :=
  { e with usage := f e.contract.capability e.serial e.usage }

theorem revise_of_eq {f : Capability → Nat → Usage → Usage} {e : Registration ρ}
    (h : f e.contract.capability e.serial e.usage = e.usage) : e.revise f = e := by
  rw [revise, h]

end Registration

namespace Book

open Registration

variable {ρ : Type} {r : Book ρ} {c c' : Capability} {n m k : Nat} {u : Usage} {e : Registration ρ}
  {es es' : List (Registration ρ)} {f g : Capability → Nat → Usage → Usage}

/-! ## Looking up a usage -/

/-- How the registration of a ticket is used, if it is in a list. -/
def usageIn (es : List (Registration ρ)) (c : Capability) (n : Nat) : Option Usage :=
  (es.find? (·.isNamed c n)).map (·.usage)

theorem mem_of_find? (h : es.find? (·.isNamed c n) = some e) :
    e ∈ es ∧ e.contract.capability = c ∧ e.serial = n := by
  have hn := List.find?_some h
  exact ⟨List.mem_of_find?_eq_some h, isNamed_iff.mp hn⟩

theorem find?_of_ne (h : ∀ x ∈ es, x.serial ≠ n) : es.find? (·.isNamed c n) = none :=
  List.find?_eq_none.mpr fun x hx hn => h x hx (isNamed_iff.mp hn).2

theorem eq_of_serial (hnd : (es.map (·.serial)).Nodup) {e' : Registration ρ} (he : e ∈ es)
    (he' : e' ∈ es) (hs : e.serial = e'.serial) : e = e' :=
  List.inj_on_of_nodup_map hnd he he' hs

theorem mem_of_usageIn (h : usageIn es c n = some u) :
    ∃ e ∈ es, e.contract.capability = c ∧ e.serial = n ∧ e.usage = u := by
  obtain ⟨e, he, rfl⟩ := Option.map_eq_some_iff.mp h
  obtain ⟨hmem, hc, hn⟩ := mem_of_find? he
  exact ⟨e, hmem, hc, hn, rfl⟩

theorem find?_of_mem (hnd : (es.map (·.serial)).Nodup) (he : e ∈ es) :
    es.find? (·.isNamed e.contract.capability e.serial) = some e := by
  cases hf : es.find? (·.isNamed e.contract.capability e.serial) with
  | none =>
      have := List.find?_eq_none.mp hf e he
      simp at this
  | some e' =>
      obtain ⟨hmem, -, hn⟩ := mem_of_find? hf
      rw [eq_of_serial hnd hmem he hn]

theorem usageIn_of_mem (hnd : (es.map (·.serial)).Nodup) (he : e ∈ es) :
    usageIn es e.contract.capability e.serial = some e.usage := by
  rw [usageIn, find?_of_mem hnd he]
  rfl

theorem usageIn_eq_some_iff (hnd : (es.map (·.serial)).Nodup) :
    usageIn es c n = some u ↔ ∃ e ∈ es, e.contract.capability = c ∧ e.serial = n ∧ e.usage = u := by
  refine ⟨mem_of_usageIn, ?_⟩
  rintro ⟨e, he, rfl, rfl, rfl⟩
  exact usageIn_of_mem hnd he

/-- One registration more is found under its own name, and every other as before. -/
theorem usageIn_of_perm_cons (hnd : (es'.map (·.serial)).Nodup) (hp : es'.Perm (e :: es)) :
    usageIn es' c m =
      if c = e.contract.capability ∧ m = e.serial then some e.usage else usageIn es c m := by
  have hcons : (e.serial :: es.map (·.serial)).Nodup := (hp.map _).nodup_iff.mp hnd
  obtain ⟨hnot, hes⟩ := List.nodup_cons.mp hcons
  ext u
  rw [usageIn_eq_some_iff hnd]
  simp only [hp.mem_iff, List.mem_cons]
  constructor
  · rintro ⟨x, rfl | hx, rfl, rfl, rfl⟩
    · simp
    · have hne : x.serial ≠ e.serial := fun hs => hnot (hs ▸ List.mem_map_of_mem hx)
      rw [if_neg fun hn => hne hn.2]
      exact usageIn_of_mem hes hx
  · split
    · next hn =>
        intro hu
        exact ⟨e, Or.inl rfl, hn.1.symm, hn.2.symm, Option.some.inj hu⟩
    · intro hu
      obtain ⟨x, hx, hc, hm, hxu⟩ := mem_of_usageIn hu
      exact ⟨x, Or.inr hx, hc, hm, hxu⟩

theorem usageIn_revise : usageIn (es.map (revise f)) c n = (usageIn es c n).map (f c n) := by
  have hcomp : (fun e : Registration ρ => (e.revise f).isNamed c n) = fun e => e.isNamed c n := rfl
  rw [usageIn, List.find?_map, Function.comp_def, hcomp, usageIn]
  cases hf : es.find? (·.isNamed c n) with
  | none => rfl
  | some e =>
      obtain ⟨-, hc, hn⟩ := mem_of_find? hf
      simp only [Option.map_some, revise, hc, hn]

theorem usageIn_filter :
    usageIn (es.filter fun e => e.serial ≠ n) c m = if m = n then none else usageIn es c m := by
  rw [usageIn, List.find?_filter]
  split
  · next hm =>
      subst hm
      rw [Option.map_eq_none_iff, List.find?_eq_none]
      intro e _
      simp +contextual
  · next hm =>
      rw [usageIn]
      congr 2
      funext e
      by_cases hs : e.serial = m
      · simp [isNamed, hs, hm]
      · simp [isNamed, hs]

theorem usageIn_append : usageIn (es ++ es') c n = (usageIn es c n).or (usageIn es' c n) := by
  simp only [usageIn, List.find?_append]
  cases es.find? (·.isNamed c n) <;> rfl

theorem usageIn_of_ne (h : ∀ x ∈ es, x.serial ≠ n) : usageIn es c n = none := by
  simp [usageIn, find?_of_ne h]

/-! ## Well-formed books -/

/-- The registrations that references may have been taken from. -/
def held (r : Book ρ) : List (Registration ρ) := r.entries ++ r.departed

/-- How a registration is used, if it is present. -/
def usage? (r : Book ρ) : Capability → Nat → Option Usage := usageIn r.entries

/-- How a registration is used, present or departed. -/
def held? (r : Book ρ) : Capability → Nat → Option Usage := usageIn r.held

/-- Serial numbers are given once, in ascending order. -/
structure WellFormed (r : Book ρ) : Prop where
  serials : (r.held.map (·.serial)).Nodup
  issued : ∀ e ∈ r.held, e.serial < r.nextSerial

theorem wellFormed_empty : WellFormed ({} : Book ρ) := ⟨List.nodup_nil, by simp [held]⟩

theorem usage?_eq_map : r.usage? c n = (r.present? c n).map (·.usage) := rfl

theorem outstanding_eq : r.outstanding c n = (r.usage? c n).map Usage.outstanding := by
  simp [outstanding, usage?_eq_map, Function.comp_def]

theorem mem_of_present? (h : r.present? c n = some e) :
    e ∈ r.entries ∧ e.contract.capability = c ∧ e.serial = n :=
  mem_of_find? h

theorem held?_of_usage? (h : r.usage? c n = some u) : r.held? c n = some u := by
  rw [held?, held, usageIn_append, show usageIn r.entries c n = some u from h]
  rfl

namespace WellFormed

theorem entries_serials (h : r.WellFormed) : (r.entries.map (·.serial)).Nodup :=
  (by simpa [held] using h.serials :
    (r.entries.map (·.serial) ++ r.departed.map (·.serial)).Nodup).of_append_left

theorem departed_serials (h : r.WellFormed) : (r.departed.map (·.serial)).Nodup :=
  (by simpa [held] using h.serials :
    (r.entries.map (·.serial) ++ r.departed.map (·.serial)).Nodup).of_append_right

/-- No registration is both present and departed. -/
theorem serial_ne (h : r.WellFormed) {e' : Registration ρ} (he : e ∈ r.entries)
    (he' : e' ∈ r.departed) :
    e.serial ≠ e'.serial := by
  have hnd : (r.entries.map (·.serial) ++ r.departed.map (·.serial)).Nodup := by
    simpa [held] using h.serials
  exact fun hs => List.disjoint_of_nodup_append hnd (List.mem_map_of_mem he)
    (hs ▸ List.mem_map_of_mem he')

theorem held?_of_mem (h : r.WellFormed) (he : e ∈ r.held) :
    r.held? e.contract.capability e.serial = some e.usage :=
  usageIn_of_mem h.serials he

theorem present?_of_mem (h : r.WellFormed) (he : e ∈ r.entries) :
    r.present? e.contract.capability e.serial = some e :=
  find?_of_mem h.entries_serials he

theorem usage?_of_mem (h : r.WellFormed) (he : e ∈ r.entries) :
    r.usage? e.contract.capability e.serial = some e.usage :=
  usageIn_of_mem h.entries_serials he

theorem lt_of_held? (h : r.WellFormed) (hu : r.held? c n = some u) : n < r.nextSerial := by
  obtain ⟨e, he, -, rfl, -⟩ := mem_of_usageIn hu
  exact h.issued e he

end WellFormed

/-! ## Revising usages -/

/-- The book with the usages of its registrations revised, those of departed ones too. -/
def revise (r : Book ρ) (f : Capability → Nat → Usage → Usage) : Book ρ :=
  { r with entries := r.entries.map (.revise f), departed := r.departed.map (.revise f) }

theorem held_revise : (r.revise f).held = r.held.map (.revise f) := by
  simp [revise, held]

theorem held?_revise : (r.revise f).held? c n = (r.held? c n).map (f c n) := by
  rw [held?, held_revise]
  exact usageIn_revise

theorem usage?_revise : (r.revise f).usage? c n = (r.usage? c n).map (f c n) :=
  usageIn_revise

theorem map_revise_serial :
    (es.map (Registration.revise f)).map (·.serial) = es.map (·.serial) := by
  rw [List.map_map]
  rfl

theorem WellFormed.revise (h : r.WellFormed) : (r.revise f).WellFormed where
  serials := by
    rw [held_revise, map_revise_serial]
    exact h.serials
  issued := by
    intro e he
    obtain ⟨x, hx, rfl⟩ := List.mem_map.mp (held_revise ▸ he)
    exact h.issued x hx

theorem map_revise_congr
    (h : ∀ x ∈ es, f x.contract.capability x.serial x.usage =
      g x.contract.capability x.serial x.usage) :
    es.map (Registration.revise f) = es.map (Registration.revise g) :=
  List.map_congr_left fun x hx => by simp only [Registration.revise, h x hx]

theorem map_revise_of_eq (h : ∀ x ∈ es, f x.contract.capability x.serial x.usage = x.usage) :
    es.map (.revise f) = es := by
  have hid : es.map (.revise f) = es.map id := List.map_congr_left fun x hx => revise_of_eq (h x hx)
  simpa using hid

theorem revise_revise : (r.revise f).revise g = r.revise fun c n u => g c n (f c n u) := by
  simp only [revise, List.map_map]
  rfl

theorem revise_of_eq (h : ∀ x ∈ r.held, f x.contract.capability x.serial x.usage = x.usage) :
    r.revise f = r := by
  rw [revise, map_revise_of_eq fun x hx => h x (List.mem_append_left _ hx),
    map_revise_of_eq fun x hx => h x (List.mem_append_right _ hx)]

/-- Revises only the usages of some registrations of a capability, by their serial numbers. -/
def only (c : Capability) (ns : List Nat) (g : Usage → Usage) (c' : Capability) (n : Nat)
    (u : Usage) :
    Usage :=
  if c' = c ∧ n ∈ ns then g u else u

theorem only_of_notMem {ns : List Nat} {g : Usage → Usage} (h : n ∉ ns) : only c ns g c' n u = u :=
  if_neg fun hmem => h hmem.2

/-- Departed registrations are left alone by a revision of present ones. -/
theorem WellFormed.map_revise_departed (h : r.WellFormed) {ns : List Nat} {g : Usage → Usage}
    (hns : ∀ n ∈ ns, ∃ e ∈ r.entries, e.serial = n) :
    r.departed.map (.revise (only c ns g)) = r.departed := by
  refine map_revise_of_eq fun x hx => only_of_notMem fun hmem => ?_
  obtain ⟨e, he, hs⟩ := hns _ hmem
  exact h.serial_ne he hx hs

theorem WellFormed.revise_entries (h : r.WellFormed) {ns : List Nat} {g : Usage → Usage}
    (hns : ∀ n ∈ ns, ∃ e ∈ r.entries, e.serial = n) :
    { r with entries := r.entries.map (.revise (only c ns g)) } = r.revise (only c ns g) := by
  rw [Book.revise, h.map_revise_departed hns]

theorem WellFormed.setUsage_eq (h : r.WellFormed) (hp : r.present? c n = some e) {g : Usage → Usage}
    (hg : g e.usage = u) : r.setUsage n u = r.revise (only c [n] g) := by
  obtain ⟨he, rfl, rfl⟩ := mem_of_present? hp
  rw [← h.revise_entries (by simpa using ⟨e, he, rfl⟩), setUsage]
  congr 1
  refine List.map_congr_left fun x hx => ?_
  by_cases hs : x.serial = e.serial
  · obtain rfl := eq_of_serial h.entries_serials hx he hs
    simp [Registration.revise, only, hg]
  · simp [Registration.revise, only, hs]

/-! ## Giving back -/

theorem giveBackIn_of_ne (h : ∀ x ∈ es, x.serial ≠ n) : giveBackIn n es = none := by
  induction es with
  | nil => rfl
  | cons x es ih =>
      have hx : x.serial ≠ n := h x List.mem_cons_self
      simp [giveBackIn, hx, ih fun y hy => h y (List.mem_cons_of_mem _ hy)]

theorem giveBackIn_of_mem (hnd : (es.map (·.serial)).Nodup) (he : e ∈ es)
    (hu : 0 < e.usage.outstanding) :
    giveBackIn e.serial es =
      some (es.map (.revise (only e.contract.capability [e.serial] Usage.lower))) := by
  induction es with
  | nil => simp at he
  | cons x es ih =>
      rw [List.map_cons, List.nodup_cons] at hnd
      rcases List.mem_cons.mp he with rfl | he'
      · have hrest : es.map (.revise (only e.contract.capability [e.serial] Usage.lower)) = es := by
          refine map_revise_of_eq fun y hy => only_of_notMem fun hmem => ?_
          exact hnd.1 (List.mem_singleton.mp hmem ▸ List.mem_map_of_mem hy)
        simp [giveBackIn, Usage.release_eq hu, hrest, Registration.revise, only]
      · have hx : x.serial ≠ e.serial := fun hs => hnd.1 (hs ▸ List.mem_map_of_mem he')
        have hrev : x.revise (only e.contract.capability [e.serial] Usage.lower) = x :=
          Registration.revise_of_eq (only_of_notMem (by simpa using hx))
        simp [giveBackIn, hx, ih hnd.2 he', hrev]

/-- A reference that is out can be given back, whether its registration is present or departed. -/
theorem WellFormed.giveBack_eq (h : r.WellFormed) (hu : r.held? c n = some u)
    (hpos : 0 < u.outstanding) :
    r.giveBack n = some (r.revise (only c [n] Usage.lower)) := by
  obtain ⟨e, he, rfl, rfl, rfl⟩ := mem_of_usageIn hu
  rcases List.mem_append.mp he with he | he
  · rw [← h.revise_entries (by simpa using ⟨e, he, rfl⟩)]
    simp [giveBack, giveBackIn_of_mem h.entries_serials he hpos]
  · have hp : ∀ x ∈ r.entries, x.serial ≠ e.serial := fun x hx => h.serial_ne hx he
    have hrev : r.entries.map (.revise (only e.contract.capability [e.serial] Usage.lower)) =
        r.entries :=
      map_revise_of_eq fun x hx => only_of_notMem (by simpa using hp x hx)
    simp [giveBack, giveBackIn_of_ne hp, giveBackIn_of_mem h.departed_serials he hpos, Book.revise,
      hrev]

/-! ## Removing -/

/-- Moves a present registration to the departed ones. -/
def depart (r : Book ρ) (e : Registration ρ) : Book ρ :=
  { r.erase e.serial with departed := r.departed ++ [e] }

theorem usage?_erase : (r.erase n).usage? c m = if m = n then none else r.usage? c m :=
  usageIn_filter

theorem usage?_depart : (r.depart e).usage? c m = if m = e.serial then none else r.usage? c m :=
  usageIn_filter

theorem WellFormed.held?_erase (h : r.WellFormed) (hp : r.present? c n = some e) :
    (r.erase n).held? c' m = if m = n then none else r.held? c' m := by
  obtain ⟨he, -, hn⟩ := mem_of_present? hp
  have hd : ∀ x ∈ r.departed, x.serial ≠ n := fun x hx hs => h.serial_ne he hx (hn.trans hs.symm)
  rw [held?, held?, held, held, usageIn_append, usageIn_append, erase, usageIn_filter]
  split
  · next hm => rw [hm, usageIn_of_ne hd]; rfl
  · rfl

theorem WellFormed.erase (h : r.WellFormed) : (r.erase n).WellFormed := by
  have hs : (r.erase n).held.Sublist r.held := List.filter_sublist.append_right _
  exact ⟨(hs.map _).nodup h.serials, fun e he => h.issued e (hs.subset he)⟩

/-- Only the registration of the ticket is erased. -/
theorem WellFormed.entries_erase (h : r.WellFormed) (hp : r.present? c n = some e) :
    (r.erase n).entries = r.entries.filter fun e => !e.isNamed c n := by
  obtain ⟨he, rfl, rfl⟩ := mem_of_present? hp
  refine List.filter_congr fun x hx => ?_
  by_cases hs : x.serial = e.serial
  · obtain rfl := eq_of_serial h.entries_serials hx he hs
    simp [Registration.isNamed]
  · simp [Registration.isNamed, hs]

theorem WellFormed.held_depart (h : r.WellFormed) (hp : r.present? c n = some e) :
    (r.depart e).held.Perm r.held := by
  obtain ⟨he, -, -⟩ := mem_of_present? hp
  have hnd : r.held.Nodup := h.serials.of_map _
  have hnd' : (r.depart e).held.Nodup := by
    have heq : (r.depart e).held = (r.erase e.serial).held ++ [e] := by
      simp [depart, held, Book.erase]
    rw [heq]
    refine List.Nodup.append (h.erase.serials.of_map _) (List.nodup_singleton _) ?_
    intro x hx hx'
    obtain rfl := List.mem_singleton.mp hx'
    rcases List.mem_append.mp hx with hx | hx
    · simpa using List.of_mem_filter hx
    · exact h.serial_ne he hx rfl
  refine (List.perm_ext_iff_of_nodup hnd' hnd).mpr fun x => ?_
  by_cases hs : x.serial = e.serial
  · have : x ∈ r.held → x = e := fun hx => eq_of_serial h.serials hx (List.mem_append_left _ he) hs
    simp only [depart, held, Book.erase, List.mem_append, List.mem_filter, List.mem_singleton, hs]
    simp only [held, List.mem_append] at this
    constructor
    · rintro (⟨_, hne⟩ | hx | rfl)
      · simp at hne
      · exact Or.inr hx
      · exact Or.inl he
    · exact fun hx => Or.inr (Or.inr (this hx))
  · have hne : x ≠ e := fun heq => hs (heq ▸ rfl)
    simp [depart, held, Book.erase, hs, hne]

theorem WellFormed.depart (h : r.WellFormed) (hp : r.present? c n = some e) :
    (r.depart e).WellFormed where
  serials := ((h.held_depart hp).map _).nodup_iff.mpr h.serials
  issued := fun x hx => h.issued x ((h.held_depart hp).mem_iff.mp hx)

/-- Departing changes no count. -/
theorem WellFormed.held?_depart (h : r.WellFormed) (hp : r.present? c n = some e) :
    (r.depart e).held? c' m = r.held? c' m := by
  ext u
  rw [held?, held?, usageIn_eq_some_iff (h.depart hp).serials, usageIn_eq_some_iff h.serials]
  simp only [(h.held_depart hp).mem_iff]

/-! ## Registering -/

/-- The book with new entries, of which one has just been made. -/
def withNew (r : Book ρ) (es : List (Registration ρ)) : Book ρ :=
  { r with entries := es, nextSerial := r.nextSerial + 1 }

theorem held_withNew (hp : es.Perm (e :: r.entries)) : (r.withNew es).held.Perm (e :: r.held) :=
  hp.append_right _

section New

variable (h : r.WellFormed) (hp : es.Perm (e :: r.entries)) (hs : e.serial = r.nextSerial)

include h hp hs

theorem WellFormed.withNew : (r.withNew es).WellFormed where
  serials := by
    refine ((held_withNew hp).map _).nodup_iff.mpr (List.nodup_cons.mpr ⟨?_, h.serials⟩)
    intro hmem
    obtain ⟨x, hx, heq⟩ := List.mem_map.mp hmem
    have hlt : x.serial < r.nextSerial := h.issued x hx
    have : x.serial = e.serial := heq
    omega
  issued := by
    intro x hx
    show x.serial < r.nextSerial + 1
    rcases List.mem_cons.mp ((held_withNew hp).mem_iff.mp hx) with rfl | hx
    · omega
    · have := h.issued x hx
      omega

theorem WellFormed.held?_withNew :
    (r.withNew es).held? c m
      = if c = e.contract.capability ∧ m = e.serial then some e.usage else r.held? c m :=
  usageIn_of_perm_cons (h.withNew hp hs).serials (held_withNew hp)

theorem WellFormed.usage?_withNew :
    (r.withNew es).usage? c m
      = if c = e.contract.capability ∧ m = e.serial then some e.usage else r.usage? c m :=
  usageIn_of_perm_cons (h.withNew hp hs).entries_serials hp

end New

end Book

end Backplane
