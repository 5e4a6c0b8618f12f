import Backplane.Proofs.Registry.Lookups
/-!
# `Backplane.Proofs.Registry.Services`: which services registrations show

A registration shows one service from beginning to end: what is done to its usage changes nothing
about that, and a removal only takes it away.  No two exclusive registrations are of one capability.
So a lookup finds whatever is present, open and alive: the lease on a contract is one on its only
provider, and every provider has a seat on every panel.

Lookups are `get` of the `InterfaceRegistry` and `get_advisors` of the `AdvisorRegistry`.
-/
namespace Backplane

/-- What stays the same about a registration as long as it is present. -/
structure Card where
  capability : Capability
  serial : Nat
  service : ServiceId

def Registration.card {ρ : Type} (e : Registration ρ) : Card :=
  ⟨e.contract.capability, e.serial, e.service⟩

/-! ## One registry -/

namespace Book

variable {ρ : Type} {r : Book ρ} {c : Capability} {n : Nat}

def cards (r : Book ρ) : List Card := r.entries.map Registration.card

theorem cards_revise {f : Capability → Nat → Usage → Usage} : (r.revise f).cards = r.cards := by
  simp only [cards, revise, List.map_map]
  rfl

theorem cards_erase : (r.erase n).cards.Sublist r.cards :=
  List.filter_sublist.map _

theorem cards_forceRemove : (r.forceRemove c n).2.cards.Sublist r.cards := by
  cases hp : r.present? c n with
  | none => rw [forceRemove, hp]
  | some e =>
      rw [forceRemove_eq hp]
      split
      · exact cards_erase
      · exact cards_erase (n := e.serial)

theorem isSome_usage? {s : ServiceId} (h : ⟨c, n, s⟩ ∈ r.cards) : (r.usage? c n).isSome := by
  obtain ⟨e, he, heq⟩ := List.mem_map.mp h
  obtain ⟨rfl, rfl, -⟩ := Card.mk.inj heq
  rw [usage?_eq_map, Option.isSome_map, present?, List.find?_isSome]
  exact ⟨e, he, Registration.isNamed_iff.mpr ⟨rfl, rfl⟩⟩

theorem WellFormed.serials_cards (h : r.WellFormed) : (r.cards.map Card.serial).Nodup := by
  have hs := h.entries_serials
  rwa [cards, List.map_map]

end Book

/-- A registration more is a card more, and the only one of its capability. -/
theorem Interfaces.cards_register {r r' : Interfaces} {k : Contract} {owner : String}
    {s : ServiceId} {n : Nat} (h : r.register k owner s = .ok (n, r')) :
    r'.cards = r.cards ++ [⟨k.capability, n, s⟩] ∧
      k.capability ∉ r.cards.map Card.capability := by
  rw [register] at h
  cases hf : r.find? k.capability with
  | some e => simp [hf] at h
  | none =>
      simp only [hf, Except.ok.injEq, Prod.mk.injEq] at h
      obtain ⟨rfl, rfl⟩ := h
      refine ⟨List.map_append, fun hmem => ?_⟩
      obtain ⟨x, hx, hc⟩ := List.mem_map.mp hmem
      obtain ⟨e, he, rfl⟩ := List.mem_map.mp hx
      exact List.find?_eq_none.mp hf e he (decide_eq_true hc)

theorem Advisors.mem_cards_register {r : Advisors} {k : Contract} {owner : String}
    {priority : Int} {s : ServiceId} {x : Card} :
    x ∈ (r.register k owner priority s).2.book.cards ↔
      x = ⟨k.capability, (r.register k owner priority s).1, s⟩ ∨ x ∈ r.book.cards := by
  simp only [Book.cards, List.mem_map, book, mem_entries_register, or_and_right, exists_or,
    exists_eq_left]
  exact or_congr_left eq_comm

/-! ## Both registries -/

namespace Broker

variable {b b' b'' : Broker} {t t' : Ticket} {s s' : ServiceId} {ts : List Ticket}

/-- Whether the registration of a ticket is present and shows a service. -/
def Serves (b : Broker) (t : Ticket) (s : ServiceId) : Prop :=
  match t with
  | .interface c n => ⟨c, n, s⟩ ∈ b.interfaces.cards
  | .advisor c n => ⟨c, n, s⟩ ∈ b.advisors.book.cards

theorem Serves.isSome_usage? (h : b.Serves t s) : (b.usage? t).isSome := by
  cases t <;> exact Book.isSome_usage? h

/-- Whether no two exclusive registrations are of one capability. -/
def Exclusive (b : Broker) : Prop := (b.interfaces.cards.map Card.capability).Nodup

theorem WellFormed.serves_unique (h : b.WellFormed) (hs : b.Serves t s) (hs' : b.Serves t s') :
    s = s' := by
  cases t with
  | interface c n =>
      exact congrArg Card.service (List.inj_on_of_nodup_map h.interfaces.serials_cards hs hs' rfl)
  | advisor c n =>
      exact congrArg Card.service (List.inj_on_of_nodup_map h.advisors.book.serials_cards hs hs' rfl)

/-- A broker in which no more registrations are present than in another, and the same ones. -/
structure Thins (b b' : Broker) : Prop where
  interfaces : b'.interfaces.cards.Sublist b.interfaces.cards
  advisors : b'.advisors.book.cards.Sublist b.advisors.book.cards

namespace Thins

theorem refl (b : Broker) : b.Thins b := ⟨.refl _, .refl _⟩

theorem trans (h : b.Thins b') (h' : b'.Thins b'') : b.Thins b'' :=
  ⟨h'.interfaces.trans h.interfaces, h'.advisors.trans h.advisors⟩

theorem revise {f : Ticket → Usage → Usage} : b.Thins (b.revise f) := by
  constructor
  · rw [Broker.revise, Book.cards_revise]
  · rw [Broker.revise, Advisors.book_revise, Book.cards_revise]

theorem forceRemove (hb : b.WellFormed) : b.Thins (b.forceRemove t).2 := by
  cases t with
  | interface c n => exact ⟨Book.cards_forceRemove, .refl _⟩
  | advisor c n =>
      refine ⟨.refl _, ?_⟩
      rw [Broker.forceRemove, hb.advisors.book_forceRemove]
      exact Book.cards_forceRemove

theorem removeAll (hb : b.WellFormed) : b.Thins (b.removeAll ts) := by
  induction ts generalizing b with
  | nil => exact .refl b
  | cons t ts ih => exact (forceRemove hb).trans (ih hb.forceRemove.wellFormed)

theorem serves (h : b.Thins b') (hs : b'.Serves t s) : b.Serves t s := by
  cases t with
  | interface c n => exact h.interfaces.subset hs
  | advisor c n => exact h.advisors.subset hs

theorem exclusive (h : b.Thins b') (hb : b.Exclusive) : b'.Exclusive :=
  (h.interfaces.map _).nodup hb

end Thins

/-! ## Publishing -/

theorem register_serves {k : Contract} {owner : String} {n : Nat} {i : Interfaces}
    (h : b.interfaces.register k owner s = .ok (n, i)) :
    Serves { b with interfaces := i } (.interface k.capability n) s := by
  obtain ⟨hcards, -⟩ := Interfaces.cards_register h
  show (⟨k.capability, n, s⟩ : Card) ∈ i.cards
  simp [hcards]

theorem register_advisor_serves {k : Contract} {owner : String} {priority : Int} :
    Serves { b with advisors := (b.advisors.register k owner priority s).2 }
      (.advisor k.capability (b.advisors.register k owner priority s).1) s :=
  Advisors.mem_cards_register.mpr (Or.inl rfl)

/-- One registration more is all that has changed. -/
theorem Publishes.serves (hp : b.Publishes t b') (hs : b'.Serves t' s) : t' = t ∨ b.Serves t' s := by
  cases hp with
  | interface h =>
      obtain ⟨hcards, -⟩ := Interfaces.cards_register h
      cases t' with
      | advisor c n => exact Or.inr hs
      | interface c n =>
          simp only [Serves, hcards, List.mem_append, List.mem_singleton, Card.mk.injEq] at hs
          rcases hs with hs | ⟨rfl, rfl, -⟩
          · exact Or.inr hs
          · exact Or.inl rfl
  | advisor k owner priority x =>
      cases t' with
      | interface c n => exact Or.inr hs
      | advisor c n =>
          rcases Advisors.mem_cards_register.mp hs with heq | hs
          · obtain ⟨rfl, rfl, -⟩ := Card.mk.inj heq
            exact Or.inl rfl
          · exact Or.inr hs

theorem Publishes.exclusive (hp : b.Publishes t b') (hb : b.Exclusive) : b'.Exclusive := by
  cases hp with
  | advisor => exact hb
  | interface h =>
      obtain ⟨hcards, hnew⟩ := Interfaces.cards_register h
      rw [Exclusive, hcards, List.map_append, List.map_singleton, ← List.concat_eq_append,
        List.nodup_concat]
      exact ⟨hnew, hb⟩

end Broker

/-! ## Lookups -/

section Lookups

variable {alive : ServiceId → Bool}

/-- The only provider of a capability is leased, if it is open and alive. -/
theorem Interfaces.lease_of_mem {r : Interfaces} {e : Registration Unit}
    (hx : (r.cards.map Card.capability).Nodup) (he : e ∈ r.entries) (hopen : e.usage.retired = false)
    (halive : alive e.service = true) :
    ∃ r', r.lease alive e.contract = .ok (⟨e.contract, e.serial, e.owner, e.service⟩, r') := by
  rw [Book.cards, List.map_map] at hx
  have hfind : r.find? e.contract.capability = some e := by
    cases hf : r.find? e.contract.capability with
    | none => simpa using List.find?_eq_none.mp hf e he
    | some x =>
        have hc : x.contract.capability = e.contract.capability := by simpa using List.find?_some hf
        rw [List.inj_on_of_nodup_map hx (List.mem_of_find?_eq_some hf) he hc]
  simp [lease, hfind, halive, Usage.acquire, hopen]

namespace Advisors

variable {k : Contract} {es : List (Registration Int)} {e : Registration Int}

/-- A search that does not stop passes by nobody of its contract who is open and alive. -/
theorem mem_search (hm : (search alive k es).mismatch = false) (he : e ∈ es)
    (hk : e.contract = k) (hopen : e.usage.retired = false) (halive : alive e.service = true) :
    e.seat ∈ (search alive k es).seats := by
  induction es with
  | nil => simp at he
  | cons x es ih =>
      rw [search] at hm ⊢
      rcases List.mem_cons.mp he with rfl | he
      · have hv : verdict alive k e = .seat e.usage.raise := by
          simp [verdict, hk, halive, Usage.acquire, hopen, Usage.raise]
        simp [hv]
      · cases hv : verdict alive k x with
        | stop => simp [hv] at hm
        | pass => exact ih (by simpa [hv] using hm) he
        | seat u => exact List.mem_cons_of_mem _ (ih (by simpa [hv] using hm) he)

theorem WellFormed.mem_panel {r : Advisors} {p : Panel} (h : r.WellFormed)
    (hp : (panel alive r e.contract).1 = .ok p) (he : e ∈ r.entries)
    (hopen : e.usage.retired = false) (halive : alive e.service = true) : e.seat ∈ p.seats := by
  rw [panel] at hp
  cases hm : (search alive e.contract (r.listOf e.contract.capability)).mismatch with
  | true => simp [hm] at hp
  | false =>
      simp only [hm, Bool.false_eq_true, if_false, Except.ok.injEq] at hp
      rw [← hp]
      exact mem_search hm (h.mem_listOf.mpr ⟨he, rfl⟩) rfl hopen halive

end Advisors

end Lookups

end Backplane
