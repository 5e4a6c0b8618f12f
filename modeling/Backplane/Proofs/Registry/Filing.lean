import Backplane.Proofs.Keyed
import Backplane.Proofs.Registry.Book
import Backplane.Registry.Advisors
/-!
# `Backplane.Proofs.Registry.Filing`: advisors in their lists, and in one book

Advisors are kept in a list for each capability.  Every operation keeps the lists in good order
(`Filed`), so that there is a list for those capabilities alone that have an advisor.  Taken one
after the other the lists make one book (`book`), which tells all about them again (`eq_of_book`).
What is known of books is known of advisors: what an operation makes of the lists is, seen as a
book, what the operation of that name makes of the book.

The lists are the `lists` of the `AdvisorRegistry`.
-/
namespace Backplane

/-- Whether an advisor is consulted before another. -/
def Registration.Before (e e' : Registration Int) : Prop :=
  e.rank < e'.rank ∨ e.rank = e'.rank ∧ e.serial < e'.serial

namespace Advisors

open Registration (Before)
open Book (only)

variable {r r' : Advisors} {e x : Registration Int} {es : List (Registration Int)}
  {l : Capability × List (Registration Int)}
  {lists lists' : List (Capability × List (Registration Int))} {c : Capability} {n : Nat} {u : Usage}
  {f g : Capability → Nat → Usage → Usage}

/-! ## Lists in good order -/

/-- Whether a list may be that of a capability: somebody is on it, everybody on it is of the
capability, and they stand in the order of consultation. -/
structure ListFor (c : Capability) (es : List (Registration Int)) : Prop where
  inhabited : es ≠ []
  own : ∀ e ∈ es, e.contract.capability = c
  order : es.Pairwise Before

/-- Whether no capability has two lists, and each has one that may be its own. -/
structure Filed (lists : List (Capability × List (Registration Int))) : Prop where
  keys : (lists.map (·.1)).Nodup
  each : ∀ l ∈ lists, ListFor l.1 l.2

namespace Filed

theorem nil : Filed [] := ⟨.nil, by simp⟩

theorem listFor (h : Filed lists) (hes : Keyed.get? lists c = some es) : ListFor c es :=
  h.each _ (Keyed.mem_of_get? hes)

theorem erase (h : Filed lists) : Filed (Keyed.erase lists c) where
  keys := Keyed.nodup_erase h.keys
  each := fun l hl => h.each l (Keyed.mem_erase.mp hl).1

theorem modify {f : List (Registration Int) → List (Registration Int)} (h : Filed lists)
    (hf : ∀ es, Keyed.get? lists c = some es → ListFor c (f es)) :
    Filed (Keyed.modify lists c f) where
  keys := by
    rw [Keyed.keys_modify]
    exact h.keys
  each := by
    intro l hl
    obtain ⟨l', hl', rfl⟩ := List.mem_map.mp hl
    split
    · next hc => exact hc ▸ hf l'.2 (hc ▸ Keyed.get?_of_mem h.keys hl')
    · exact h.each l' hl'

theorem append (h : Filed lists) (hnew : Keyed.get? lists c = none) (hes : ListFor c es) :
    Filed (lists ++ [(c, es)]) where
  keys := by
    rw [List.map_append, List.map_singleton, ← List.concat_eq_append, List.nodup_concat]
    exact ⟨Keyed.get?_eq_none_iff.mp hnew, h.keys⟩
  each := by
    intro l hl
    rcases List.mem_append.mp hl with hl | hl
    · exact h.each l hl
    · exact List.mem_singleton.mp hl ▸ hes

end Filed

theorem ListFor.revise (h : ListFor c es) : ListFor c (es.map (.revise f)) where
  inhabited := by simpa using h.inhabited
  own := List.forall_mem_map.mpr h.own
  order := h.order.map _ fun _ _ hlt => hlt

/-! ## One list after the other -/

/-- Everybody on the lists. -/
def flat (lists : List (Capability × List (Registration Int))) : List (Registration Int) :=
  lists.flatMap (·.2)

@[simp] theorem flat_cons : flat (l :: lists) = l.2 ++ flat lists := List.flatMap_cons

theorem mem_flat : e ∈ flat lists ↔ ∃ l ∈ lists, e ∈ l.2 := List.mem_flatMap

namespace Filed

/-- Those on the first list are the ones of its capability. -/
theorem uncons (h : Filed (l :: lists)) :
    Filed lists ∧ (∀ e ∈ l.2, e.contract.capability = l.1) ∧
      ∀ e ∈ flat lists, e.contract.capability ≠ l.1 := by
  obtain ⟨hnot, hkeys⟩ := List.nodup_cons.mp h.keys
  refine ⟨⟨hkeys, fun l' hl' => h.each l' (List.mem_cons_of_mem _ hl')⟩,
    (h.each l List.mem_cons_self).own, fun e he heq => ?_⟩
  obtain ⟨l', hl', he'⟩ := mem_flat.mp he
  have hown := (h.each l' (List.mem_cons_of_mem _ hl')).own e he'
  have hkey : l'.1 ∈ lists.map (·.1) := List.mem_map_of_mem hl'
  rw [← hown, heq] at hkey
  exact hnot hkey

theorem filter_first (h : Filed (l :: lists)) :
    ((flat (l :: lists)).filter fun e => e.contract.capability = l.1) = l.2 := by
  obtain ⟨-, hfirst, hrest⟩ := h.uncons
  rw [flat_cons, List.filter_append, List.filter_eq_self.mpr (by simpa using hfirst),
    List.filter_eq_nil_iff.mpr (by simpa using hrest), List.append_nil]

theorem filter_rest (h : Filed (l :: lists)) :
    ((flat (l :: lists)).filter fun e => e.contract.capability ≠ l.1) = flat lists := by
  obtain ⟨-, hfirst, hrest⟩ := h.uncons
  rw [flat_cons, List.filter_append, List.filter_eq_nil_iff.mpr (by simpa using hfirst),
    List.filter_eq_self.mpr (by simpa using hrest), List.nil_append]

/-- The list of a capability has those of all that are of it. -/
theorem get?_getD (h : Filed lists) :
    (Keyed.get? lists c).getD [] = (flat lists).filter fun e => e.contract.capability = c := by
  induction lists with
  | nil => rfl
  | cons l lists ih =>
      by_cases hc : l.1 = c
      · rw [← hc, h.filter_first]
        simp [Keyed.get?]
      · have hnone : (l.2.filter fun e => e.contract.capability = c) = [] :=
          List.filter_eq_nil_iff.mpr fun e he => by simpa [h.uncons.2.1 e he] using hc
        have hget : Keyed.get? (l :: lists) c = Keyed.get? lists c := by simp [Keyed.get?, hc]
        rw [hget, ih h.uncons.1, flat_cons, List.filter_append, hnone, List.nil_append]

/-- Lists in good order are told by who is on them. -/
theorem eq_of_flat (h : Filed lists) (h' : Filed lists') (heq : flat lists = flat lists') :
    lists = lists' := by
  induction lists generalizing lists' with
  | nil =>
      cases lists' with
      | nil => rfl
      | cons l' lists' =>
          have hne := (h'.each l' List.mem_cons_self).inhabited
          exact absurd (List.append_eq_nil_iff.mp (flat_cons ▸ heq.symm)).1 hne
  | cons l lists ih =>
      have hne := (h.each l List.mem_cons_self).inhabited
      cases lists' with
      | nil => exact absurd (List.append_eq_nil_iff.mp (flat_cons ▸ heq)).1 hne
      | cons l' lists' =>
          -- whoever stands first tells the capability of the first list
          have hkey : l.1 = l'.1 := by
            obtain ⟨e, es, hes⟩ := List.exists_cons_of_ne_nil hne
            obtain ⟨e', es', hes'⟩ := List.exists_cons_of_ne_nil
              (h'.each l' List.mem_cons_self).inhabited
            have hsame : e = e' := by
              rw [flat_cons, flat_cons, hes, hes'] at heq
              exact (List.cons.inj heq).1
            have hl := h.uncons.2.1 e (hes ▸ List.mem_cons_self)
            have hl' := h'.uncons.2.1 e' (hes' ▸ List.mem_cons_self)
            rw [← hl, ← hl', hsame]
          have hfirst : l.2 = l'.2 := by
            rw [← h.filter_first, ← h'.filter_first, heq, hkey]
          have hrest : flat lists = flat lists' := by
            rw [← h.filter_rest, ← h'.filter_rest, heq, hkey]
          rw [Prod.ext hkey hfirst, ih h.uncons.1 h'.uncons.1 hrest]

end Filed

/-! ## The lists as one book -/

/-- The present advisors, list by list. -/
def entries (r : Advisors) : List (Registration Int) := flat r.lists

/-- All advisors in one book. -/
def book (r : Advisors) : Book Int := ⟨r.entries, r.departed, r.nextSerial⟩

/-- The registrations that references may have been taken from. -/
def held (r : Advisors) : List (Registration Int) := r.book.held

/-- Whether the lists are in good order, and numbers have been given once, in ascending order. -/
structure WellFormed (r : Advisors) : Prop where
  filed : Filed r.lists
  book : r.book.WellFormed

theorem wellFormed_empty : WellFormed {} := ⟨.nil, Book.wellFormed_empty⟩

/-- Well-formed advisors are the same if they are so in one book. -/
theorem WellFormed.eq_of_book (h : r.WellFormed) (h' : r'.WellFormed) (heq : r.book = r'.book) :
    r = r' := by
  obtain ⟨hentries, hdeparted, hnext⟩ := Book.mk.inj heq
  cases r
  cases r'
  rw [mk.injEq]
  exact ⟨h.filed.eq_of_flat h'.filed hentries, hdeparted, hnext⟩

namespace WellFormed

theorem listOf_eq (h : r.WellFormed) :
    r.listOf c = r.entries.filter fun e => e.contract.capability = c :=
  h.filed.get?_getD

theorem mem_listOf (h : r.WellFormed) :
    e ∈ r.listOf c ↔ e ∈ r.entries ∧ e.contract.capability = c := by
  simp [h.listOf_eq]

theorem listOf_serials (h : r.WellFormed) : ((r.listOf c).map (·.serial)).Nodup := by
  rw [h.listOf_eq]
  exact (List.filter_sublist.map _).nodup h.book.entries_serials

theorem pairwise_listOf (h : r.WellFormed) : (r.listOf c).Pairwise Before := by
  rw [listOf]
  cases hes : Keyed.get? r.lists c with
  | none => exact .nil
  | some es => exact (h.filed.listFor hes).order

theorem present?_eq (h : r.WellFormed) : r.present? c n = r.book.present? c n := by
  rw [present?, h.listOf_eq, List.find?_filter, Book.present?]
  exact congrArg (List.find? · r.entries) (funext fun e => by simp [Registration.isNamed])

theorem outstanding_eq (h : r.WellFormed) :
    r.outstanding c n = (r.book.usage? c n).map Usage.outstanding := by
  rw [outstanding, h.present?_eq]
  exact Book.outstanding_eq

/-- A list that is replaced by what is made of it is modified in its place. -/
theorem setList_eq (h : r.WellFormed) {f : List (Registration Int) → List (Registration Int)} :
    r.setList c (f (r.listOf c)) = { r with lists := Keyed.modify r.lists c f } := by
  rw [setList, listOf]
  cases hes : Keyed.get? r.lists c with
  | none => rw [Keyed.modify_of_get? hes, Keyed.modify_of_get? hes]
  | some es => simp only [Option.getD_some, Keyed.modify_of_nodup (f := f) h.filed.keys hes]

end WellFormed

/-! ## Revising usages -/

/-- The advisors with their usages revised, those of departed ones too. -/
def revise (r : Advisors) (f : Capability → Nat → Usage → Usage) : Advisors :=
  { r with
    lists := r.lists.map fun l => (l.1, l.2.map (.revise f))
    departed := r.departed.map (.revise f) }

@[simp] theorem book_revise : (r.revise f).book = r.book.revise f := by
  simp only [book, entries, flat, revise, Book.revise, List.flatMap_map, List.map_flatMap]

theorem revise_revise : (r.revise f).revise g = r.revise fun c n u => g c n (f c n u) := by
  simp only [revise, List.map_map, Function.comp_def]
  rfl

/-- Lists of whom nobody is revised stay as they are. -/
theorem map_lists_of_eq (h : ∀ x ∈ r.entries, f x.contract.capability x.serial x.usage = x.usage) :
    (r.lists.map fun l => (l.1, l.2.map (.revise f))) = r.lists := by
  refine (List.map_congr_left fun l hl => ?_).trans (List.map_id _)
  have hsame : l.2.map (.revise f) = l.2 :=
    Book.map_revise_of_eq fun x hx => h x (mem_flat.mpr ⟨l, hl, hx⟩)
  rw [hsame, id]

theorem revise_of_eq (h : ∀ x ∈ r.held, f x.contract.capability x.serial x.usage = x.usage) :
    r.revise f = r := by
  have hdeparted : r.departed.map (.revise f) = r.departed :=
    Book.map_revise_of_eq fun x hx => h x (List.mem_append_right _ hx)
  rw [revise, map_lists_of_eq fun x hx => h x (List.mem_append_left _ hx), hdeparted]

namespace WellFormed

theorem revise (h : r.WellFormed) : (r.revise f).WellFormed where
  filed :=
    { keys := by
        simp only [Advisors.revise, List.map_map]
        exact h.filed.keys
      each := by
        intro l hl
        obtain ⟨l', hl', rfl⟩ := List.mem_map.mp hl
        exact (h.filed.each l' hl').revise }
  book := book_revise ▸ h.book.revise

/-- To revise some of a list is to revise them alone. -/
theorem setList_revise (h : r.WellFormed) {ns : List Nat} {g : Usage → Usage}
    (hns : ∀ n ∈ ns, ∃ e ∈ r.entries, e.serial = n) :
    r.setList c ((r.listOf c).map (.revise (only c ns g))) = r.revise (only c ns g) := by
  have hlists : Keyed.modify r.lists c (List.map (.revise (only c ns g)))
      = r.lists.map fun l => (l.1, l.2.map (.revise (only c ns g))) := by
    refine List.map_congr_left fun l hl => ?_
    split
    · rfl
    · next hc =>
        have hsame : l.2.map (.revise (only c ns g)) = l.2 := Book.map_revise_of_eq fun x hx => by
          simp [only, (h.filed.each l hl).own x hx, hc]
        rw [hsame]
  have hdeparted : r.departed.map (.revise (only c ns g)) = r.departed :=
    h.book.map_revise_departed hns
  rw [h.setList_eq, hlists, Advisors.revise, hdeparted]

theorem setUsage_eq (h : r.WellFormed) (hp : r.book.present? c n = some e) {g : Usage → Usage}
    (hg : g e.usage = u) : r.setUsage c n u = r.revise (only c [n] g) := by
  obtain ⟨he, rfl, rfl⟩ := Book.mem_of_present? hp
  rw [← h.setList_revise (by simpa using ⟨e, he, rfl⟩), setUsage]
  refine congrArg _ (List.map_congr_left fun x hx => ?_)
  by_cases hs : x.serial = e.serial
  · obtain rfl := Book.eq_of_serial h.book.entries_serials (h.mem_listOf.mp hx).1 he hs
    simp [Registration.revise, only, hg]
  · simp [Registration.revise, only, hs]

theorem retire_eq (h : r.WellFormed) :
    r.retire c n = match r.book.usage? c n with
      | none => .error (.unknownTicket c)
      | some u =>
        if u.outstanding = 0 then .ok (r.revise (only c [n] Usage.hide))
        else .error (.busy c u.outstanding) := by
  rw [retire, h.present?_eq, Book.usage?_eq_map]
  cases hp : r.book.present? c n with
  | none => rfl
  | some e =>
      simp only [Option.map_some, Usage.retire_eq]
      by_cases ho : e.usage.outstanding = 0
      · simp only [ho, if_true, h.setUsage_eq hp (g := Usage.hide) rfl]
      · simp only [ho, if_false]

theorem restore_eq (h : r.WellFormed) :
    r.restore c n = match r.book.usage? c n with
      | none => r
      | some _ => r.revise (only c [n] Usage.restore) := by
  rw [restore, h.present?_eq, Book.usage?_eq_map]
  cases hp : r.book.present? c n with
  | none => rfl
  | some e => exact h.setUsage_eq hp rfl

/-- A reference that is out can be given back, whether its registration is present or departed. -/
theorem giveBack_eq (h : r.WellFormed) (hu : r.book.held? c n = some u) (hpos : 0 < u.outstanding) :
    r.giveBack c n = some (r.revise (only c [n] Usage.lower)) := by
  obtain ⟨e, he, rfl, rfl, rfl⟩ := Book.mem_of_usageIn hu
  rcases List.mem_append.mp he with he | he
  · have hin : e ∈ r.listOf e.contract.capability := h.mem_listOf.mpr ⟨he, rfl⟩
    simp only [giveBack, Book.giveBackIn_of_mem h.listOf_serials hin hpos]
    rw [h.setList_revise (by simpa using ⟨e, he, rfl⟩)]
  · have hne : ∀ x ∈ r.entries, x.serial ≠ e.serial := fun x hx => h.book.serial_ne hx he
    have hlists : (r.lists.map fun l =>
        (l.1, l.2.map (.revise (only e.contract.capability [e.serial] Usage.lower)))) = r.lists :=
      map_lists_of_eq fun x hx => Book.only_of_notMem (by simpa using hne x hx)
    have hgive : Book.giveBackIn e.serial r.departed = some (r.departed.map
        (.revise (only e.contract.capability [e.serial] Usage.lower))) :=
      Book.giveBackIn_of_mem h.book.departed_serials he hpos
    simp only [giveBack, Book.giveBackIn_of_ne fun x hx => hne x (h.mem_listOf.mp hx).1, hgive,
      Option.map_some, Advisors.revise, hlists]

end WellFormed

/-! ## Registering -/

theorem insert_perm (e : Registration Int) (es : List (Registration Int)) :
    (insert e es).Perm (e :: es) := by
  have hmid : (insert e es).Perm (e :: (es.takeWhile (fun x => x.rank ≤ e.rank)
      ++ es.dropWhile fun x => x.rank ≤ e.rank)) := List.perm_middle
  rwa [List.takeWhile_append_dropWhile] at hmid

theorem insert_cons : insert e (x :: es) = if x.rank ≤ e.rank then x :: insert e es else e :: x :: es := by
  by_cases hle : x.rank ≤ e.rank <;> simp [insert, hle]

/-- Whatever an advisor is put among, the others stand as they stood. -/
theorem filter_insert {p : Registration Int → Bool} (he : p e = false) :
    (insert e es).filter p = es.filter p := by
  have hsplit := congrArg (List.filter p)
    (List.takeWhile_append_dropWhile (p := fun x : Registration Int => x.rank ≤ e.rank) (l := es))
  rw [List.filter_append] at hsplit
  rw [insert, List.filter_append, List.filter_cons_of_neg (by simp [he]), hsplit]

/-- A registration with a new number is put where its turn is. -/
theorem pairwise_insert (h : es.Pairwise Before) (hnew : ∀ x ∈ es, x.serial < e.serial) :
    (insert e es).Pairwise Before := by
  induction es with
  | nil => exact List.pairwise_singleton _ _
  | cons x es ih =>
      obtain ⟨hx, hes⟩ := List.pairwise_cons.mp h
      rw [insert_cons]
      split
      · next hle =>
          refine List.pairwise_cons.mpr
            ⟨fun y hy => ?_, ih hes fun y hy => hnew y (List.mem_cons_of_mem _ hy)⟩
          rcases List.mem_cons.mp ((insert_perm e es).mem_iff.mp hy) with rfl | hy
          · have hlt := hnew x List.mem_cons_self
            unfold Before
            omega
          · exact hx y hy
      · next hgt =>
          refine List.pairwise_cons.mpr ⟨fun y hy => Or.inl ?_, h⟩
          rcases List.mem_cons.mp hy with rfl | hy
          · omega
          · have := hx y hy
            unfold Before at this
            omega

theorem ListFor.insert (h : ListFor c es) (hc : e.contract.capability = c)
    (hnew : ∀ x ∈ es, x.serial < e.serial) : ListFor c (insert e es) where
  inhabited := fun hnil => List.cons_ne_nil e es (hnil ▸ insert_perm e es).symm.eq_nil
  own := fun x hx => by
    rcases List.mem_cons.mp ((insert_perm e es).mem_iff.mp hx) with rfl | hx
    · exact hc
    · exact h.own x hx
  order := pairwise_insert h.order hnew

theorem ListFor.single (hc : e.contract.capability = c) : ListFor c [e] where
  inhabited := List.cons_ne_nil e []
  own := by simpa using hc
  order := List.pairwise_singleton _ e

section Register

variable {k : Contract} {owner : String} {priority : Int} {s : ServiceId}

/-- The registration that is made next. -/
def entrant (r : Advisors) (k : Contract) (owner : String) (priority : Int) (s : ServiceId) :
    Registration Int :=
  { rank := priority, serial := r.nextSerial, contract := k, owner, service := s }

/-- The first advisor of a capability gets a list. -/
theorem lists_register_of_none (h : Keyed.get? r.lists k.capability = none) :
    (r.register k owner priority s).2.lists =
      r.lists ++ [(k.capability, [r.entrant k owner priority s])] := by
  simp [register, Keyed.has, h, insert, entrant]

/-- Any other is put on the list there is. -/
theorem lists_register_of_some (h : Keyed.get? r.lists k.capability = some es) :
    (r.register k owner priority s).2.lists =
      Keyed.modify r.lists k.capability (insert (r.entrant k owner priority s)) := by
  simp [register, Keyed.has, h, entrant]

theorem mem_entries_register :
    x ∈ (r.register k owner priority s).2.entries ↔
      x = r.entrant k owner priority s ∨ x ∈ r.entries := by
  rw [entries, entries]
  cases hes : Keyed.get? r.lists k.capability with
  | none => simp [lists_register_of_none hes, flat, or_comm]
  | some es =>
      rw [lists_register_of_some hes]
      simp only [flat, Keyed.modify, List.flatMap_map, List.mem_flatMap]
      constructor
      · rintro ⟨l, hl, hx⟩
        split at hx
        · rcases List.mem_cons.mp ((insert_perm _ _).mem_iff.mp hx) with hx | hx
          · exact Or.inl hx
          · exact Or.inr ⟨l, hl, hx⟩
        · exact Or.inr ⟨l, hl, hx⟩
      · rintro (rfl | ⟨l, hl, hx⟩)
        · refine ⟨_, Keyed.mem_of_get? hes, ?_⟩
          simp [(insert_perm _ es).mem_iff]
        · refine ⟨l, hl, ?_⟩
          split
          · exact (insert_perm _ _).mem_iff.mpr (List.mem_cons_of_mem _ hx)
          · exact hx

/-- Somebody more is on the lists, and nobody less. -/
theorem WellFormed.entries_register (h : r.WellFormed) :
    (r.register k owner priority s).2.entries.Perm (r.entrant k owner priority s :: r.entries) := by
  rw [entries, entries]
  cases hes : Keyed.get? r.lists k.capability with
  | none =>
      rw [lists_register_of_none hes, flat, List.flatMap_append]
      exact List.perm_append_singleton _ _
  | some es =>
      have hold := (Keyed.perm_erase h.filed.keys hes).flatMap_right (·.2)
      have hnew := (Keyed.perm_modify h.filed.keys hes
        (f := insert (r.entrant k owner priority s))).flatMap_right (·.2)
      rw [lists_register_of_some hes]
      exact hnew.trans (((insert_perm _ es).append_right _).trans (hold.symm.cons _))

theorem filter_register {p : Registration Int → Bool}
    (he : p (r.entrant k owner priority s) = false) :
    (r.register k owner priority s).2.entries.filter p = r.entries.filter p := by
  rw [entries, entries]
  cases hes : Keyed.get? r.lists k.capability with
  | none => simp [lists_register_of_none hes, flat, he]
  | some es =>
      rw [lists_register_of_some hes]
      simp only [flat, Keyed.modify, List.flatMap_map, List.filter_flatMap]
      refine congrArg (List.flatMap · r.lists) (funext fun l => ?_)
      split
      · exact filter_insert he
      · rfl

theorem WellFormed.register (h : r.WellFormed) : (r.register k owner priority s).2.WellFormed where
  filed := by
    cases hes : Keyed.get? r.lists k.capability with
    | none =>
        rw [lists_register_of_none hes]
        exact h.filed.append hes (.single rfl)
    | some es =>
        rw [lists_register_of_some hes]
        refine h.filed.modify fun es hes => (h.filed.listFor hes).insert rfl fun x hx => ?_
        exact h.book.issued x (List.mem_append_left _ (mem_flat.mpr ⟨_, Keyed.mem_of_get? hes, hx⟩))
  book := h.book.withNew h.entries_register rfl

end Register

/-! ## Removing -/

theorem Filed.flat_erase (h : Filed lists) :
    flat (Keyed.erase lists c) = (flat lists).filter fun e => e.contract.capability ≠ c := by
  induction lists with
  | nil => rfl
  | cons l lists ih =>
      obtain ⟨hrest, hfirst, -⟩ := h.uncons
      rw [flat_cons, List.filter_append, ← ih hrest]
      by_cases hc : l.1 = c
      · rw [List.filter_eq_nil_iff.mpr fun e he => by simp [hfirst e he, hc]]
        simp [Keyed.erase, hc]
      · rw [List.filter_eq_self.mpr fun e he => by simp [hfirst e he, hc]]
        simp [Keyed.erase, hc]

theorem Filed.flat_modify_filter {p : Registration Int → Bool} (h : Filed lists) :
    flat (Keyed.modify lists c (List.filter p))
      = (flat lists).filter fun e => e.contract.capability ≠ c || p e := by
  induction lists with
  | nil => rfl
  | cons l lists ih =>
      obtain ⟨hrest, hfirst, -⟩ := h.uncons
      have hmodify : Keyed.modify (l :: lists) c (List.filter p)
        = (if l.1 = c then (l.1, l.2.filter p) else l) :: Keyed.modify lists c (List.filter p) := rfl
      rw [hmodify, flat_cons, flat_cons, List.filter_append, ih hrest]
      refine congrArg (· ++ _) ?_
      split
      · next hc => exact List.filter_congr fun e he => by simp [hfirst e he, hc]
      · next hc => exact (List.filter_eq_self.mpr fun e he => by simp [hfirst e he, hc]).symm

namespace WellFormed

/-- Whoever a ticket names is taken off the lists, and with him his list if he was the last. -/
theorem entries_erase (h : r.WellFormed) :
    (r.erase c n).entries = r.entries.filter fun e => !e.isNamed c n := by
  rw [Advisors.erase]
  split
  · next hempty =>
      have hall : ∀ e ∈ r.entries, e.contract.capability = c → e.serial = n := fun e he hc => by
        simpa using List.filter_eq_nil_iff.mp (List.isEmpty_iff.mp hempty) e (h.mem_listOf.mpr ⟨he, hc⟩)
      refine h.filed.flat_erase.trans (List.filter_congr fun e he => ?_)
      by_cases hc : e.contract.capability = c
      · simp [Registration.isNamed, hc, hall e he hc]
      · simp [Registration.isNamed, hc]
  · rw [h.setList_eq (f := List.filter fun e => e.serial ≠ n)]
    refine h.filed.flat_modify_filter.trans (List.filter_congr fun e _ => ?_)
    simp [Registration.isNamed, Bool.not_and]

theorem filed_erase (h : r.WellFormed) : Filed (r.erase c n).lists := by
  rw [Advisors.erase]
  split
  · exact h.filed.erase
  · next hsome =>
      rw [h.setList_eq (f := List.filter fun e => e.serial ≠ n)]
      refine h.filed.modify fun es hes => ?_
      have hlist := h.filed.listFor hes
      rw [listOf, hes, Option.getD_some] at hsome
      exact
        { inhabited := fun hnil => hsome (List.isEmpty_iff.mpr hnil)
          own := fun e he => hlist.own e (List.mem_of_mem_filter he)
          order := hlist.order.filter _ }

theorem book_erase (h : r.WellFormed) (hp : r.book.present? c n = some e) :
    (r.erase c n).book = r.book.erase n := by
  have hentries : (r.erase c n).entries = (r.book.erase n).entries :=
    h.entries_erase.trans (h.book.entries_erase hp).symm
  rw [Advisors.book, hentries, Advisors.erase]
  split <;> rfl

end WellFormed

end Advisors

end Backplane
