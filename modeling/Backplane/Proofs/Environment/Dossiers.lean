import Backplane.Proofs.Environment.Moves
/-!
# `Backplane.Proofs.Environment.Dossiers`: what dossiers have on record

A dossier has records of some of what has been published through it, in the order of publication.
As long as a registration is present, its record keeps the service that it shows.

A dossier is a `ModuleContext`, and has `registrations`.
-/
namespace Backplane

/-- The tickets of what a module has published, in order. -/
def Dossier.tickets (d : Dossier) : List Ticket := d.records.map (·.ticket)

theorem Dossier.tickets_append {d : Dossier} {r : Record} :
    (d.append r).tickets = d.tickets ++ [r.ticket] :=
  List.map_append

/-- Whether the dossier of an instance has a record of a ticket. -/
def FiledIn (ds : List Dossier) (n : Nat) (t : Ticket) : Prop :=
  ∃ d ∈ ds, d.member = n ∧ t ∈ d.tickets

section Filed

variable {ds : List Dossier} {f : Dossier → Dossier} {n m : Nat} {t t' : Ticket} {r : Record}

theorem map_changeIn {β : Type} {g : Dossier → β} (hf : ∀ d, g (f d) = g d) :
    (changeIn ds m f).map g = ds.map g := by
  rw [changeIn, List.map_map]
  refine List.map_congr_left fun d _ => ?_
  simp only [Function.comp_apply]
  split
  · exact hf d
  · rfl

/-- Only the dossier of the instance is another one then. -/
theorem mem_changeIn {d' : Dossier} (h : d' ∈ changeIn ds m f) :
    ∃ d ∈ ds, d.member = m ∧ d' = f d ∨ d.member ≠ m ∧ d' = d := by
  obtain ⟨d, hd, rfl⟩ := List.mem_map.mp h
  refine ⟨d, hd, ?_⟩
  by_cases hm : d.member = m
  · exact Or.inl ⟨hm, if_pos hm⟩
  · exact Or.inr ⟨hm, if_neg hm⟩

theorem map_member_changeIn (hf : ∀ d, (f d).member = d.member) :
    (changeIn ds m f).map (·.member) = ds.map (·.member) :=
  map_changeIn hf

/-- What holds of the numbers of instances holds of any dossiers of the same instances. -/
theorem forall_member_congr {ds' : List Dossier} {q : Nat → Prop}
    (h : ds'.map (·.member) = ds.map (·.member))
    (hq : ∀ d ∈ ds, q d.member) : ∀ d ∈ ds', q d.member := by
  intro d hd
  have hmem : d.member ∈ ds.map (·.member) := h ▸ List.mem_map_of_mem hd
  obtain ⟨d', hd', heq⟩ := List.mem_map.mp hmem
  exact heq ▸ hq d' hd'

theorem filedIn_changeIn (hf : ∀ d, (f d).member = d.member) :
    FiledIn (changeIn ds m f) n t
      ↔ ∃ d ∈ ds, d.member = n ∧ t ∈ (if n = m then f d else d).tickets := by
  simp only [FiledIn, changeIn, List.mem_map]
  constructor
  · rintro ⟨_, ⟨d, hd, rfl⟩, hn, ht⟩
    by_cases hm : d.member = m
    · rw [if_pos hm] at hn ht
      have hdn : d.member = n := (hf d).symm.trans hn
      exact ⟨d, hd, hdn, by rwa [if_pos (hdn.symm.trans hm)]⟩
    · rw [if_neg hm] at hn ht
      exact ⟨d, hd, hn, by rwa [if_neg (hn ▸ hm)]⟩
  · rintro ⟨d, hd, rfl, ht⟩
    refine ⟨_, ⟨d, hd, rfl⟩, ?_, ht⟩
    split
    · exact hf d
    · rfl

theorem filedIn_append (hm : m ∈ ds.map (·.member)) :
    FiledIn (changeIn ds m (·.append r)) n t ↔ FiledIn ds n t ∨ n = m ∧ t = r.ticket := by
  rw [filedIn_changeIn (f := (·.append r)) fun _ => rfl]
  by_cases hn : n = m
  · subst hn
    obtain ⟨d₀, hd₀, hmem⟩ := List.mem_map.mp hm
    simp only [if_true, FiledIn, Dossier.append, Dossier.tickets, List.map_append, List.mem_append,
      List.map_cons, List.map_nil, List.mem_singleton, true_and]
    constructor
    · rintro ⟨d, hd, hdn, ht | ht⟩
      · exact Or.inl ⟨d, hd, hdn, ht⟩
      · exact Or.inr ht
    · rintro (⟨d, hd, hdn, ht⟩ | ht)
      · exact ⟨d, hd, hdn, Or.inl ht⟩
      · exact ⟨d₀, hd₀, hmem, Or.inr ht⟩
  · simp [FiledIn, hn]

theorem filedIn_without :
    FiledIn (changeIn ds m (·.without t')) n t ↔ FiledIn ds n t ∧ ¬ (n = m ∧ t = t') := by
  rw [filedIn_changeIn (f := (·.without t')) fun _ => rfl]
  by_cases hn : n = m
  · subst hn
    have htick : ∀ d : Dossier, t ∈ (d.without t').tickets ↔ t ∈ d.tickets ∧ t ≠ t' := by
      intro d
      simp only [Dossier.without, Dossier.tickets, List.mem_map, List.mem_filter, decide_eq_true_eq]
      constructor
      · rintro ⟨r, ⟨hr, hne⟩, rfl⟩
        exact ⟨⟨r, hr, rfl⟩, hne⟩
      · rintro ⟨⟨r, hr, rfl⟩, hne⟩
        exact ⟨r, ⟨hr, hne⟩, rfl⟩
    simp only [if_true, htick, FiledIn, true_and]
    constructor
    · rintro ⟨d, hd, hdn, ht, hne⟩
      exact ⟨⟨d, hd, hdn, ht⟩, hne⟩
    · rintro ⟨⟨d, hd, hdn, ht⟩, hne⟩
      exact ⟨d, hd, hdn, ht, hne⟩
  · simp [FiledIn, hn]

/-- Emptying a dossier leaves the others. -/
theorem filedIn_clear :
    FiledIn (changeIn ds m fun d => { d with records := [] }) n t ↔ FiledIn ds n t ∧ n ≠ m := by
  rw [filedIn_changeIn (f := fun d => { d with records := [] }) fun _ => rfl]
  by_cases hn : n = m
  · simp [hn, Dossier.tickets]
  · simp [FiledIn, hn]

end Filed

/-! ## Order -/

def Episode.publishedBy? (n : Nat) : Episode → Option Ticket
  | .published (some m) t => if m = n then some t else none
  | _ => none

/-- What has been published through the dossier of an instance, in order. -/
def publishedBy (n : Nat) (history : List Episode) : List Ticket :=
  history.filterMap (Episode.publishedBy? n)

section Published

variable {history news : List Episode} {n m : Nat} {t : Ticket}

theorem Episode.publishedBy?_eq_some {e : Episode} :
    e.publishedBy? n = some t ↔ e = .published (some n) t := by
  rcases e with ⟨_ | m, x⟩ | x | x <;> simp [publishedBy?]

theorem mem_publishedBy : t ∈ publishedBy n history ↔ .published (some n) t ∈ history := by
  simp only [publishedBy, List.mem_filterMap, Episode.publishedBy?_eq_some, exists_eq_right]

theorem publishedBy_append :
    publishedBy n (history ++ news) = publishedBy n history ++ publishedBy n news :=
  List.filterMap_append

theorem publishedBy_eq_nil (h : ∀ t, .published (some n) t ∉ news) : publishedBy n news = [] :=
  List.eq_nil_iff_forall_not_mem.mpr fun t ht => h t (mem_publishedBy.mp ht)

/-- What others publish, and what is taken out, is not published by an instance. -/
theorem publishedBy_append_of_notMem (h : ∀ t, .published (some n) t ∉ news) :
    publishedBy n (history ++ news) = publishedBy n history := by
  rw [publishedBy_append, publishedBy_eq_nil h, List.append_nil]

theorem publishedBy_append_of_ne {o : Option Nat} (ho : o ≠ some n) :
    publishedBy n (history ++ [.published o t]) = publishedBy n history :=
  publishedBy_append_of_notMem fun _ hx =>
    ho (Episode.published.inj (List.mem_singleton.mp hx)).1.symm

theorem publishedBy_singleton : publishedBy n [.published (some n) t] = [t] := by
  simp [publishedBy, Episode.publishedBy?]

end Published

/-- A dossier of which some records have been taken out. -/
structure Dossier.Trims (d d' : Dossier) : Prop where
  member : d'.member = d.member
  records : ∃ keep : Ticket → Bool, d'.records = d.records.filter fun r => keep r.ticket

namespace Dossier.Trims

variable {d : Dossier} {t : Ticket}

theorem refl (d : Dossier) : d.Trims d := ⟨rfl, fun _ => true, by simp⟩

theorem without : d.Trims (d.without t) := ⟨rfl, fun x => x ≠ t, rfl⟩

theorem clear : d.Trims { d with records := [] } := ⟨rfl, fun _ => false, by simp⟩

theorem detach : d.Trims { d with attached := false } := ⟨rfl, fun _ => true, by simp⟩

theorem changeIn {ds : List Dossier} {n : Nat} {f : Dossier → Dossier}
    (hf : ∀ d : Dossier, d.Trims (f d)) : ∀ d' ∈ changeIn ds n f, ∃ d ∈ ds, d.Trims d' := by
  intro d' hd'
  obtain ⟨d, hd, rfl⟩ := List.mem_map.mp hd'
  refine ⟨d, hd, ?_⟩
  split
  · exact hf d
  · exact .refl d

end Dossier.Trims

/-! ## Keeping -/

namespace Scene

variable {s : Scene} {b : Broker} {t : Ticket} {d d' : Dossier} {ds : List Dossier}
  {history news : List Episode}

/-- Whether a dossier keeps what is present of what it has on record, and lists it in the order in
which it was published. -/
structure Keeps (b : Broker) (history : List Episode) (d : Dossier) : Prop where
  served : ∀ r ∈ d.records, ∀ x, b.Serves r.ticket x → x = r.service
  ordered : ∃ keep : Ticket → Bool, d.tickets = (publishedBy d.member history).filter keep

/-- What every dossier keeps, no other exclusive registration taking the place of what it keeps. -/
structure Tended (s : Scene) : Prop where
  exclusive : s.broker.Exclusive
  kept : ∀ d ∈ s.dossiers, Keeps s.broker s.history d

namespace Keeps

theorem trim (h : Keeps b history d) {b' : Broker} (hb : b.Thins b') (ht : d.Trims d')
    (hnews : ∀ n t, .published (some n) t ∉ news) : Keeps b' (history ++ news) d' := by
  obtain ⟨hm, keep, hrecords⟩ := ht
  obtain ⟨keep', hordered⟩ := h.ordered
  refine ⟨fun r hr x hx => ?_, fun t => keep' t && keep t, ?_⟩
  · rw [hrecords] at hr
    exact h.served r (List.mem_of_mem_filter hr) x (hb.serves hx)
  · rw [hm, publishedBy_append_of_notMem (hnews _)]
    have htickets : d'.tickets = d.tickets.filter keep := by
      rw [Dossier.tickets, hrecords, Dossier.tickets, List.filter_map]
      rfl
    rw [htickets, hordered, List.filter_filter]
    simp only [Bool.and_comm]

/-- What others publish changes nothing. -/
theorem publish (h : Keeps b history d) {b' : Broker} {o : Option Nat} (hp : b.Publishes t b')
    (hnew : t ∉ d.tickets) (ho : o ≠ some d.member) :
    Keeps b' (history ++ [.published o t]) d where
  served := fun r hr x hx => by
    rcases hp.serves hx with heq | hx
    · exact absurd (heq ▸ List.mem_map_of_mem hr) hnew
    · exact h.served r hr x hx
  ordered := by
    rw [publishedBy_append_of_ne ho]
    exact h.ordered

/-- What is published through a dossier comes last in it. -/
theorem record (h : Keeps b history d) {b' : Broker} {r : Record} (hwf : b'.WellFormed)
    (hp : b.Publishes r.ticket b') (hs : b'.Serves r.ticket r.service)
    (hnew : .published (some d.member) r.ticket ∉ history) :
    Keeps b' (history ++ [.published (some d.member) r.ticket]) (d.append r) := by
  obtain ⟨keep, hordered⟩ := h.ordered
  have hout : r.ticket ∉ publishedBy d.member history := fun hin => hnew (mem_publishedBy.mp hin)
  have hnone : r.ticket ∉ d.tickets := fun hin => hout (List.mem_of_mem_filter (hordered ▸ hin))
  refine ⟨fun x hx s hs' => ?_, fun t => keep t || t = r.ticket, ?_⟩
  · rcases List.mem_append.mp hx with hx | hx
    · rcases hp.serves hs' with heq | hs'
      · exact absurd (heq ▸ List.mem_map_of_mem hx) hnone
      · exact h.served x hx s hs'
    · obtain rfl := List.mem_singleton.mp hx
      exact hwf.serves_unique hs' hs
  · have hold : (publishedBy d.member history).filter (fun t => keep t || t = r.ticket) =
        (publishedBy d.member history).filter keep := by
      refine List.filter_congr fun t ht => ?_
      have hne : t ≠ r.ticket := fun heq => hout (heq ▸ ht)
      simp [hne]
    rw [Dossier.tickets_append, hordered]
    show _ = (publishedBy d.member _).filter _
    rw [publishedBy_append, publishedBy_singleton, List.filter_append, hold]
    simp

end Keeps

namespace Tended

theorem trim (h : s.Tended) (hb : s.broker.Thins b)
    (hds : ∀ d' ∈ ds, ∃ d ∈ s.dossiers, d.Trims d')
    (hnews : ∀ n t, .published (some n) t ∉ news) {hand : List Hold} {slots : List (SlotKey × Hold)}
    {claims : List String} {nextMember : Nat} :
    Tended ⟨hand, b, ds, slots, s.history ++ news, claims, nextMember⟩ where
  exclusive := hb.exclusive h.exclusive
  kept := fun d' hd' => by
    obtain ⟨d, hd, ht⟩ := hds d' hd'
    exact (h.kept d hd).trim hb ht hnews

/-- Records may be taken out without anything happening. -/
theorem less (h : s.Tended) (hb : s.broker.Thins b)
    (hds : ∀ d' ∈ ds, ∃ d ∈ s.dossiers, d.Trims d') {hand : List Hold}
    {slots : List (SlotKey × Hold)} {claims : List String} {nextMember : Nat} :
    Tended ⟨hand, b, ds, slots, s.history, claims, nextMember⟩ := by
  have hsame : Tended ⟨hand, b, ds, slots, s.history ++ [], claims, nextMember⟩ :=
    h.trim hb hds (by simp)
  rwa [List.append_nil] at hsame

theorem thin (h : s.Tended) (hb : s.broker.Thins b) {hand : List Hold}
    {slots : List (SlotKey × Hold)} {claims : List String} {nextMember : Nat} :
    Tended ⟨hand, b, s.dossiers, slots, s.history, claims, nextMember⟩ :=
  h.less hb fun d hd => ⟨d, hd, .refl d⟩

end Tended

end Scene

end Backplane
