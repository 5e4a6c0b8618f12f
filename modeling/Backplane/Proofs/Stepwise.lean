import Mathlib.Data.List.Induction
import Mathlib.Data.List.Lex
import Mathlib.Data.List.Nodup
/-!
# `Backplane.Proofs.Stepwise`: lists grown at the end

Orders, members and turns are all kept in lists that grow at their end, and what is asked of such a
list is asked of each element and of those before it.  One more element is one more question; and a
list of numbers that takes the lowest possible one at each step is the least of all.

The `ModuleRecord`s of the `ModuleLoader` stand so, and the modules of a `LoadPlan`.
-/
namespace Backplane

variable {α β : Type} {P Q : List α → α → Prop} {xs ys : List α} {x : α}

/-- Whether each element of a list stands in a relation to those before it. -/
def Stepwise (P : List α → α → Prop) (xs : List α) : Prop :=
  ∀ before x after, xs = before ++ x :: after → P before x

namespace Stepwise

theorem nil : Stepwise P [] := by
  intro before x after h
  simp at h

theorem append_singleton_iff : Stepwise P (xs ++ [x]) ↔ Stepwise P xs ∧ P xs x := by
  constructor
  · intro h
    refine ⟨?_, h xs x [] rfl⟩
    intro before y after heq
    exact h before y (after ++ [x]) (by simp [heq])
  · rintro ⟨h, hx⟩ before y after heq
    rcases List.eq_nil_or_concat after with rfl | ⟨after, z, rfl⟩
    · obtain ⟨rfl, hxy⟩ := List.append_inj' heq rfl
      exact List.singleton_inj.mp hxy ▸ hx
    · have hsplit : xs ++ [x] = (before ++ y :: after) ++ [z] := by simpa using heq
      obtain ⟨rfl, -⟩ := List.append_inj' hsplit rfl
      exact h before y after rfl

theorem append_singleton (h : Stepwise P xs) (hx : P xs x) : Stepwise P (xs ++ [x]) :=
  append_singleton_iff.mpr ⟨h, hx⟩

theorem singleton_iff : Stepwise P [x] ↔ P [] x := by
  rw [← List.nil_append [x], append_singleton_iff]
  exact and_iff_right nil

theorem append_iff : Stepwise P (xs ++ ys) ↔
    Stepwise P xs ∧ Stepwise (fun before y => P (xs ++ before) y) ys := by
  induction ys using List.reverseRecOn with
  | nil => simp [nil]
  | append_singleton ys y ih =>
      rw [← List.append_assoc, append_singleton_iff, append_singleton_iff, ih, and_assoc]

theorem cons_iff : Stepwise P (x :: xs) ↔ P [] x ∧ Stepwise (fun before y => P (x :: before) y) xs := by
  rw [← List.singleton_append, append_iff, singleton_iff]
  rfl

theorem mono (h : Stepwise P xs) (hPQ : ∀ before x, P before x → Q before x) : Stepwise Q xs := by
  intro before x after heq
  exact hPQ before x (h before x after heq)

theorem map_iff {f : β → α} {zs : List β} :
    Stepwise P (zs.map f) ↔ Stepwise (fun before z => P (before.map f) (f z)) zs := by
  constructor
  · intro h before z after heq
    exact h (before.map f) (f z) (after.map f) (by simp [heq])
  · intro h before y after heq
    obtain ⟨front, back, rfl, rfl, hback⟩ := List.map_eq_append_iff.mp heq
    obtain ⟨z, rest, rfl, rfl, rfl⟩ := List.map_eq_cons_iff.mp hback
    exact h front z rest rfl

theorem exists_of_mem (h : Stepwise P xs) (hx : x ∈ xs) : ∃ before, P before x ∧ before ⊆ xs := by
  obtain ⟨before, after, rfl⟩ := List.append_of_mem hx
  exact ⟨before, h before x after rfl, List.subset_append_left _ _⟩

theorem nodup_iff : Stepwise (fun before x => x ∉ before) xs ↔ xs.Nodup := by
  induction xs using List.reverseRecOn with
  | nil => exact ⟨fun _ => .nil, fun _ => .nil⟩
  | append_singleton xs x ih =>
      rw [append_singleton_iff, ih, ← List.concat_eq_append, List.nodup_concat, and_comm]

/-- An element may go if those behind it do not depend on it. -/
theorem remove {before after : List α} (h : Stepwise P (before ++ x :: after))
    (hafter : ∀ middle y, y ∈ after → P (before ++ x :: middle) y → P (before ++ middle) y) :
    Stepwise P (before ++ after) := by
  intro front y back heq
  rcases List.append_eq_append_iff.mp heq with ⟨middle, rfl, rfl⟩ | ⟨rest, rfl, hrest⟩
  · have hy : y ∈ middle ++ y :: back := by simp
    exact hafter middle y hy (h (before ++ x :: middle) y back (by simp))
  · cases rest with
    | nil =>
        -- the element is the first of those behind
        obtain rfl : y :: back = after := by simpa using hrest
        have hold := h (front ++ [x]) y back (by simp)
        simpa using hafter [] y List.mem_cons_self (by simpa using hold)
    | cons z rest =>
        obtain ⟨rfl, rfl⟩ := List.cons.inj hrest
        exact h front y (rest ++ x :: after) (by simp)

/-- What takes the lowest number that may come next, at each step, is least in the order of
words. -/
theorem le {R : List Nat → Nat → Prop} {ms ns : List Nat}
    (hm : Stepwise (fun before i => ∀ j, R before j → i ≤ j) ms) (hn : Stepwise R ns)
    (hlen : ms.length = ns.length) : ms ≤ ns := by
  suffices h : ∀ front ms' ns', ms = front ++ ms' → ns = front ++ ns' → ms'.length = ns'.length →
      ms' ≤ ns' from h [] ms ns rfl rfl hlen
  intro front ms'
  induction ms' generalizing front with
  | nil =>
      intro ns' _ _ hlen'
      rw [List.eq_nil_of_length_eq_zero hlen'.symm]
  | cons i ms' ih =>
      intro ns' hms hns hlen'
      cases ns' with
      | nil => simp at hlen'
      | cons j ns' =>
          have hij : i ≤ j := hm front i ms' hms j (hn front j ns' hns)
          rcases Nat.lt_or_eq_of_le hij with hlt | rfl
          · exact le_of_lt (List.Lex.rel hlt)
          · refine List.cons_le_cons i (ih (front ++ [i]) ns' (by simp [hms]) (by simp [hns]) ?_)
            simpa using hlen'

end Stepwise

end Backplane
