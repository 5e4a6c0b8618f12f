import Backplane.Distinct
import Mathlib.Data.List.Nodup
/-!
# `Backplane.Proofs.Distinct`: each element where it occurs first

So `plan_config` joins dependencies.
-/
namespace Backplane

variable {α : Type} [DecidableEq α] {xs : List α} {x : α}

theorem mem_distinct : x ∈ distinct xs ↔ x ∈ xs := by
  induction xs with
  | nil => simp [distinct]
  | cons y ys ih =>
      by_cases hxy : x = y
      · simp [distinct, hxy]
      · simp [distinct, hxy, ih]

theorem nodup_distinct : (distinct xs).Nodup := by
  induction xs with
  | nil => exact .nil
  | cons y ys ih =>
      rw [distinct]
      refine List.nodup_cons.mpr ⟨?_, ih.filter _⟩
      intro hy
      simpa using (List.mem_filter.mp hy).2

/-- The order is that of first occurrences. -/
theorem pairwise_distinct : (distinct xs).Pairwise fun x y => xs.idxOf x < xs.idxOf y := by
  induction xs with
  | nil => exact .nil
  | cons a as ih =>
      have hne : ∀ y ∈ (distinct as).filter fun z => z ≠ a, y ≠ a := by
        intro y hy
        simpa using (List.mem_filter.mp hy).2
      rw [distinct]
      refine List.pairwise_cons.mpr ⟨?_, ?_⟩
      · intro y hy
        rw [List.idxOf_cons_self, List.idxOf_cons_ne _ (hne y hy).symm]
        exact Nat.succ_pos _
      · refine (ih.filter _).imp_of_mem ?_
        intro y z hy hz hlt
        rw [List.idxOf_cons_ne _ (hne y hy).symm, List.idxOf_cons_ne _ (hne z hz).symm]
        exact Nat.succ_lt_succ hlt

end Backplane
