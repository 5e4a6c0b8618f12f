import Backplane.Proofs.Registry.Rosters
/-!
# `Backplane.Proofs.Registry.Consultation`: the order in which advisors are consulted

Advisors stand by priority, and those of one priority by registration; no two stand in the same
place.  Registering keeps that order, and whatever else is done to a registry leaves it: the lists
are in good order after any dealings (`exact_after`), and a capability without advisors has none.  A
panel is what is listed under its capability at one moment, less what is hidden or dead, and it stays
as it is until it is given back.

Advisors are in the `lists` of the `AdvisorRegistry`; a panel is an `AdvisorSnapshot`.
-/
namespace Backplane

theorem Contract.eq_of_shape {k k' : Contract} (hc : k.capability = k'.capability)
    (hs : k.shape = k'.shape) : k = k' := by
  cases k
  cases k'
  simp_all

namespace Advisors

variable {r : Advisors} {e : Registration Int} {es : List (Registration Int)} {c : Capability}
  {k : Contract} {alive : ServiceId → Bool}

/-! ## The lists -/

/-- The lists are those of the capabilities that have an advisor: an empty one is not kept. -/
theorem WellFormed.mem_lists (h : r.WellFormed) : (c, es) ∈ r.lists ↔ es = r.listOf c ∧ es ≠ [] := by
  rw [listOf]
  constructor
  · intro hmem
    rw [Keyed.get?_of_mem h.filed.keys hmem, Option.getD_some]
    exact ⟨rfl, (h.filed.each _ hmem).inhabited⟩
  · rintro ⟨rfl, hne⟩
    cases hes : Keyed.get? r.lists c with
    | none => simp [hes] at hne
    | some es => exact Keyed.mem_of_get? hes

theorem WellFormed.mem_keys (h : r.WellFormed) : c ∈ r.lists.map (·.1) ↔ r.listOf c ≠ [] := by
  rw [List.mem_map]
  constructor
  · rintro ⟨⟨c, es⟩, hmem, rfl⟩
    obtain ⟨rfl, hne⟩ := h.mem_lists.mp hmem
    exact hne
  · exact fun hne => ⟨(c, r.listOf c), h.mem_lists.mpr ⟨rfl, hne⟩, rfl⟩

/-! ## Panels -/

/-- Whether a lookup of its contract takes a reference on a registration. -/
def available (alive : ServiceId → Bool) (e : Registration Int) : Bool :=
  !e.usage.retired && alive e.service

/-- A registration of another shape stops a search. -/
theorem search_mismatch (he : e ∈ es) (hne : e.contract.shape ≠ k.shape) :
    (search alive k es).mismatch = true := by
  induction es with
  | nil => simp at he
  | cons x es ih =>
      rw [search]
      rcases List.mem_cons.mp he with rfl | he
      · rw [show verdict alive k e = .stop by simp [verdict, hne]]
      · cases verdict alive k x with
        | stop => rfl
        | pass => exact ih he
        | seat u => exact ih he

/-- If there is none, whoever is available gets a seat, in order. -/
theorem search_eq (alive : ServiceId → Bool) (h : ∀ e ∈ es, e.contract.shape = k.shape) :
    (search alive k es).mismatch = false ∧
      (search alive k es).seats = (es.filter (available alive)).map Registration.seat := by
  induction es with
  | nil => exact ⟨rfl, rfl⟩
  | cons e es ih =>
      obtain ⟨hs, hes⟩ := List.forall_mem_cons.mp h
      obtain ⟨hmis, hseats⟩ := ih hes
      rw [search]
      cases ha : available alive e with
      | true =>
          have hopen : e.usage.retired = false ∧ alive e.service = true := by
            simpa [available] using ha
          have hv : verdict alive k e = .seat e.usage.raise := by
            simp [verdict, hs, hopen, Usage.acquire, Usage.raise]
          simp [hv, hmis, hseats, ha]
      | false =>
          have hv : verdict alive k e = .pass := by
            rw [available, Bool.and_eq_false_iff] at ha
            rcases ha with hr | hd
            · have hr : e.usage.retired = true := by simpa using hr
              simp [verdict, hs, Usage.acquire, hr]
            · simp [verdict, hs, hd]
          simp [hv, hmis, hseats, ha]

/-- A panel has exactly whoever is listed and available, in order, unless there is a registration
of another shape. -/
theorem WellFormed.panel_eq (h : r.WellFormed) :
    (panel alive r k).1 =
      if ∀ e ∈ r.listOf k.capability, e.contract = k then
        .ok ⟨k, ((r.listOf k.capability).filter (available alive)).map Registration.seat⟩
      else .error (.shapeMismatch k.capability) := by
  rw [panel]
  by_cases hk : ∀ e ∈ r.listOf k.capability, e.contract = k
  · obtain ⟨hmis, hseats⟩ := search_eq alive fun e he => congrArg Contract.shape (hk e he)
    rw [if_pos hk, hmis, hseats]
    rfl
  · obtain ⟨e, he, hne⟩ : ∃ e ∈ r.listOf k.capability, e.contract ≠ k := by simpa using hk
    have hshape : e.contract.shape ≠ k.shape := fun hs =>
      hne (Contract.eq_of_shape (h.mem_listOf.mp he).2 hs)
    rw [if_neg hk, search_mismatch he hshape]
    rfl

end Advisors

/-! ## Over dealings -/

/-- The registration of a listing, if it is an advisor's of a capability. -/
def Listing.advisorOf? (c : Capability) : Listing → Option (Registration Int)
  | .interface _ => none
  | .advisor e => if e.contract.capability = c then some e else none

theorem Broker.WellFormed.advisorsOf_published {b : Broker} {c : Capability} (h : b.WellFormed) :
    b.published.filterMap (Listing.advisorOf? c)
      = (b.advisors.listOf c).map Registration.asMade := by
  have hi : (b.interfaces.entries.map Listing.interface).filterMap
      (fun x => Listing.advisorOf? c x.asMade) = [] := by
    simp [Listing.advisorOf?, Listing.asMade, Listing.withUsage]
  have ha : ∀ es : List (Registration Int), (es.map Listing.advisor).filterMap
      (fun x => Listing.advisorOf? c x.asMade)
        = (es.filter fun e => e.contract.capability = c).map Registration.asMade := by
    intro es
    induction es with
    | nil => rfl
    | cons e es ih =>
        by_cases hc : e.contract.capability = c
        · simpa [Listing.advisorOf?, Listing.asMade, Listing.withUsage, Registration.asMade, hc]
            using ih
        · simpa [Listing.advisorOf?, Listing.asMade, Listing.withUsage, hc] using ih
  rw [published, List.filterMap_map, listings, Listing.all, List.filterMap_append]
  simp only [Function.comp_def]
  rw [hi, ha, h.advisors.listOf_eq]
  rfl

namespace Ledger

variable {l : Ledger} {ds : List Dealing} {d : Dealing} {h : Hold} {out : List Hold} {p : Panel}

/-- What a dealing does to the references in hand. -/
inductive Hands (l : Ledger) : Dealing → List Hold → Prop
  | leased {alive : ServiceId → Bool} {k : Contract} (x : Lease) :
      Hands l (.lease alive k) (.lease x :: l.out)
  | seated {alive : ServiceId → Bool} {k : Contract} {p : Panel}
      (h : (l.broker.advisors.panel alive k).1 = .ok p) : Hands l (.panel alive k) (.panel p :: l.out)
  | returned {i : Nat} {h : Hold} (h : l.out[i]? = some h) : Hands l (.giveBack i) (l.out.eraseIdx i)
  | same {d : Dealing} : Hands l d l.out

theorem hands_step (l : Ledger) (d : Dealing) : l.Hands d (l.step d).out := by
  cases d with
  | publishInterface k owner s =>
      rw [step]
      cases l.broker.interfaces.register k owner s <;> exact .same
  | publishAdvisor k owner priority s => exact .same
  | withdraw t =>
      rw [step]
      cases l.broker.withdraw t <;> exact .same
  | lease alive k =>
      rw [step]
      split
      · exact .leased _
      · exact .same
  | panel alive k =>
      rw [step]
      split
      · next h => exact .seated (congrArg Prod.fst h)
      · exact .same
  | giveBack i =>
      rw [step]
      split
      · next h => exact .returned h
      · exact .same
  | retire t =>
      rw [step]
      cases l.broker.retire t <;> exact .same
  | restore t => exact .same
  | forceRemove t => exact .same

theorem Hands.mem (hs : l.Hands d out) (hh : h ∈ l.out) :
    h ∈ out ∨ ∃ i, d = .giveBack i ∧ l.out[i]? = some h := by
  cases hs with
  | leased | seated => exact Or.inl (List.mem_cons_of_mem _ hh)
  | @returned i x hi =>
      rcases List.mem_cons.mp ((perm_eraseIdx hi).mem_iff.mp hh) with rfl | hh
      · exact Or.inr ⟨i, rfl, hi⟩
      · exact Or.inl hh
  | same => exact Or.inl hh

/-- A reference stays in hand, as it is, until it is given back. -/
theorem mem_out_foldl (hh : h ∈ l.out) (ds : List Dealing) :
    h ∈ (ds.foldl step l).out ∨
      ∃ ds₁ i ds₂, ds = ds₁ ++ .giveBack i :: ds₂ ∧ (ds₁.foldl step l).out[i]? = some h := by
  induction ds generalizing l with
  | nil => exact Or.inl hh
  | cons d ds ih =>
      rcases (hands_step l d).mem hh with hh | ⟨i, rfl, hi⟩
      · rcases ih hh with hh | ⟨ds₁, i, ds₂, rfl, hi⟩
        · exact Or.inl hh
        · exact Or.inr ⟨d :: ds₁, i, ds₂, rfl, hi⟩
      · exact Or.inr ⟨[], i, ds, rfl, hi⟩

theorem Hands.panel_mem (hs : l.Hands d out) (hp : .panel p ∈ out) :
    .panel p ∈ l.out ∨
      ∃ alive k, d = .panel alive k ∧ (l.broker.advisors.panel alive k).1 = .ok p := by
  cases hs with
  | leased x =>
      rcases List.mem_cons.mp hp with heq | hp
      · simp at heq
      · exact Or.inl hp
  | @seated alive k q hq =>
      rcases List.mem_cons.mp hp with heq | hp
      · exact Or.inr ⟨alive, k, rfl, Hold.panel.inj heq ▸ hq⟩
      · exact Or.inl hp
  | returned => exact Or.inl (List.mem_of_mem_eraseIdx hp)
  | same => exact Or.inl hp

/-- A panel in hand is, unchanged, what a lookup has answered. -/
theorem panel_mem_out_foldl (hp : .panel p ∈ (ds.foldl step l).out) :
    .panel p ∈ l.out ∨ ∃ ds₁ alive k ds₂, ds = ds₁ ++ .panel alive k :: ds₂ ∧
      ((ds₁.foldl step l).broker.advisors.panel alive k).1 = .ok p := by
  induction ds generalizing l with
  | nil => exact Or.inl hp
  | cons d ds ih =>
      rcases ih hp with hp | ⟨ds₁, alive, k, ds₂, rfl, hq⟩
      · rcases (hands_step l d).panel_mem hp with hp | ⟨alive, k, rfl, hq⟩
        · exact Or.inl hp
        · exact Or.inr ⟨[], alive, k, ds, rfl, hq⟩
      · exact Or.inr ⟨d :: ds₁, alive, k, ds₂, rfl, hq⟩

/-- After any dealings the advisors of each capability stand in one list, each that has been
registered and not removed exactly once, in strictly ascending order of priority and registration;
and there are lists of those capabilities alone that have an advisor.  A lookup seats exactly those
on the list who are neither retired nor dead, in that order, unless one has another shape.  Every
panel in hand is what a lookup answered at some time, and it stays so over all further dealings until
it is given back. -/
theorem consultation_order (ds : List Dealing) :
    let r := (after ds).broker.advisors
    (r.lists.length = r.size ∧ (r.lists.map (·.1)).Nodup ∧
      (∀ c es, (c, es) ∈ r.lists ↔ es = r.listOf c ∧ es ≠ []) ∧
      ∀ c, c ∈ r.lists.map (·.1) ↔ (roster ds).filterMap (Listing.advisorOf? c) ≠ []) ∧
    (∀ c, (r.listOf c).Pairwise Registration.Before ∧
      ((r.listOf c).map Registration.asMade).Perm ((roster ds).filterMap (Listing.advisorOf? c))) ∧
    (∀ alive k, (r.panel alive k).1 =
      if ∀ e ∈ r.listOf k.capability, e.contract = k then
        .ok ⟨k, ((r.listOf k.capability).filter fun e => !e.usage.retired && alive e.service).map
          Registration.seat⟩
      else .error (.shapeMismatch k.capability)) ∧
    ∀ p, .panel p ∈ (after ds).out →
      (∃ ds₁ alive k ds₂, ds = ds₁ ++ .panel alive k :: ds₂ ∧
        ((after ds₁).broker.advisors.panel alive k).1 = .ok p) ∧
      ∀ ds', .panel p ∈ (after (ds ++ ds')).out ∨
        ∃ ds₁ i ds₂, ds' = ds₁ ++ .giveBack i :: ds₂ ∧
          (after (ds ++ ds₁)).out[i]? = some (.panel p) := by
  intro r
  have hr : r.WellFormed := (exact_after ds).wellFormed.advisors
  have hroster : ∀ c, ((r.listOf c).map Registration.asMade).Perm
      ((roster ds).filterMap (Listing.advisorOf? c)) := fun c => by
    rw [← (exact_after ds).wellFormed.advisorsOf_published]
    exact (published_after ds).filterMap _
  refine ⟨⟨rfl, hr.filed.keys, fun _ _ => hr.mem_lists, fun c => ?_⟩,
    fun c => ⟨hr.pairwise_listOf, hroster c⟩, fun _ _ => hr.panel_eq, fun p hp => ⟨?_, fun ds' => ?_⟩⟩
  · rw [hr.mem_keys, ← List.length_pos_iff, ← List.length_pos_iff, ← (hroster c).length_eq,
      List.length_map]
  · rcases panel_mem_out_foldl hp with hnone | hsome
    · simp at hnone
    · exact hsome
  · simpa only [after, List.foldl_append] using mem_out_foldl hp ds'

/-- Of two advisors of one priority the first to register is consulted first, and a negative
priority goes before both. -/
example :
    let late : Dealing := .publishAdvisor .killPoints "late" 5 0
    let early : Dealing := .publishAdvisor .killPoints "early" (-2) 0
    ((after [late, early, late]).broker.advisors.listOf Contract.killPoints.capability).map
      (·.serial) = [2, 1, 3] :=
  rfl

/-- With the last advisor of a capability its list goes, and not before. -/
example :
    let arrive : Dealing := .publishAdvisor .killPoints "any" 0 0
    let leave (n : Nat) : Dealing := .withdraw (.advisor Contract.killPoints.capability n)
    [[arrive, arrive, leave 1], [arrive, arrive, leave 1, leave 2]].map
      (fun ds => (after ds).broker.advisors.size) = [1, 0] :=
  rfl

end Ledger

end Backplane
