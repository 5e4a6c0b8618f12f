import Backplane.Proofs.Plan.Order
import Mathlib.Data.Set.Finite.Basic
import Mathlib.Logic.Relation
import Mathlib.Order.WellFoundedSet
/-!
# `Backplane.Proofs.Plan.Cycles`: only a cycle stands in the way of an order

There is an order unless things need one another in a circle.  The ordering goes on as long as
something may come next.  When nothing may, everything that is not in order needs something that is
not in order either; there are finitely many things, so following such needs leads round a circle.
An order that is complete leaves no room for one, since needs lead backwards in it.

The ordering is `stable_topological_order`.
-/
namespace Backplane.Order

variable {needs : List (List Nat)} {order : List Nat} {p q : Progress} {i j : Nat}

/-- Whether one thing needs another. -/
def Needs (needs : List (List Nat)) (j i : Nat) : Prop := i ∈ needs.getD j []

/-- Whether some thing needs itself, at one remove or more. -/
def Cyclic (needs : List (List Nat)) : Prop := ∃ i, Relation.TransGen (Needs needs) i i

theorem Needs.lt (h : Needs needs j i) : j < needs.length := by
  by_contra hj
  rw [Needs, List.getD_eq_getElem?_getD, List.getElem?_eq_none (Nat.le_of_not_lt hj)] at h
  simp at h

/-! ## A complete order leaves no cycle -/

theorem Needs.idxOf_lt (hperm : order.Perm (List.range needs.length))
    (hmet : Stepwise (Met needs) order) (h : Needs needs j i) : order.idxOf i < order.idxOf j := by
  have hnodup : order.Nodup := hperm.nodup_iff.mpr List.nodup_range
  have hj : j ∈ order := hperm.mem_iff.mpr (List.mem_range.mpr h.lt)
  obtain ⟨before, after, rfl⟩ := List.append_of_mem hj
  have hi : i ∈ before := hmet before j after rfl i h
  have hnot : j ∉ before := fun hin =>
    (List.nodup_append.mp hnodup).2.2 j hin j List.mem_cons_self rfl
  rw [List.idxOf_append_of_mem hi, List.idxOf_append_of_notMem hnot, List.idxOf_cons_self]
  exact List.idxOf_lt_length_of_mem hi

theorem not_cyclic (hperm : order.Perm (List.range needs.length))
    (hmet : Stepwise (Met needs) order) : ¬ Cyclic needs := by
  rintro ⟨i, hi⟩
  have hlt : ∀ j k, Relation.TransGen (Needs needs) j k → order.idxOf k < order.idxOf j := by
    intro j k h
    induction h with
    | single h => exact h.idxOf_lt hperm hmet
    | tail _ h ih => exact Nat.lt_trans (h.idxOf_lt hperm hmet) ih
  exact Nat.lt_irrefl _ (hlt i i hi)

/-! ## Where the ordering stops -/

namespace Progress

theorem foldl_settle_order (js : List Nat) : (js.foldl settle p).order = p.order := by
  induction js generalizing p with
  | nil => rfl
  | cons j js ih => exact ih

theorem length_step (h : p.step needs = some q) : q.order.length = p.order.length + 1 := by
  obtain ⟨i, rest, -, rfl⟩ := exists_ready_of_step h
  rw [foldl_settle_order, put, List.length_append, List.length_singleton]

/-- Steps that do not put one thing each in order have come to where nothing is ready. -/
theorem ready_steps (n : Nat) (h : (p.steps needs n).order.length < p.order.length + n) :
    (p.steps needs n).ready = [] := by
  induction n generalizing p with
  | zero => exact absurd h (Nat.lt_irrefl _)
  | succ n ih =>
      rw [steps] at h ⊢
      cases hs : p.step needs with
      | none => exact step_eq_none_iff.mp hs
      | some q =>
          simp only [hs] at h
          have hlen := length_step hs
          exact ih (by omega)

end Progress

/-- Without a cycle needs can be followed only so far. -/
theorem isStrictOrder_of_not_cyclic (h : ¬ Cyclic needs) :
    IsStrictOrder Nat fun i j => Relation.TransGen (Needs needs) j i where
  irrefl i hi := h ⟨i, hi⟩
  trans _ _ _ hij hjk := hjk.trans hij

/-- Where nothing may come next and something has not come, there is a cycle. -/
theorem cyclic_of_stuck (hw : WellPosed needs) (hstuck : ∀ j, ¬ MayCome needs order j)
    (hj : j < needs.length) (hout : j ∉ order) : Cyclic needs := by
  by_contra hno
  have hstrict := isStrictOrder_of_not_cyclic hno
  have hfinite : {k | k < needs.length ∧ k ∉ order}.Finite :=
    (Set.finite_lt_nat needs.length).subset fun _ hk => hk.1
  have hwf := hfinite.wellFoundedOn (r := fun i j => Relation.TransGen (Needs needs) j i)
  -- each thing that is left needs another that is left
  refine hwf.induction (P := fun _ => False) ⟨hj, hout⟩ ?_
  rintro k ⟨hk, hkout⟩ ih
  have hunmet : ¬ Met needs order k := fun hmet => hstuck k ⟨hk, hkout, hmet⟩
  simp only [Met, not_forall] at hunmet
  obtain ⟨i, hi, hnot⟩ := hunmet
  exact ih i ⟨hw.known k i hi, hnot⟩ (.single hi)

/-- There is an order exactly if there is no cycle. -/
theorem resolve_error_iff (hw : WellPosed needs) :
    (∃ names, resolve needs = .error names) ↔ Cyclic needs := by
  constructor
  · rintro ⟨names, h⟩
    have hexact := Progress.final_exact hw
    by_cases hlen : (Progress.final needs).order.length < needs.length
    · have hready : (Progress.final needs).ready = [] :=
        Progress.ready_steps _ (hlen.trans_eq (Nat.zero_add _).symm)
      have hstuck : ∀ j, ¬ MayCome needs (Progress.final needs).order j := by
        intro j hj
        simpa [hready] using (hexact.ready j).mpr hj
      obtain ⟨j, hj, hout⟩ : ∃ j ∈ List.range needs.length, j ∉ (Progress.final needs).order := by
        by_contra hall
        simp only [not_exists, not_and, not_not] at hall
        have hle := (List.nodup_range.subperm hall).length_le
        rw [List.length_range] at hle
        exact Nat.not_lt.mpr hle hlen
      exact cyclic_of_stuck hw hstuck (List.mem_range.mp hj) hout
    · simp [resolve, hlen] at h
  · intro hcyclic
    cases h : resolve needs with
    | error names => exact ⟨names, rfl⟩
    | ok order =>
        obtain ⟨hperm, hmet, -⟩ := resolve_ok hw h
        exact absurd hcyclic (not_cyclic hperm hmet)

end Backplane.Order
