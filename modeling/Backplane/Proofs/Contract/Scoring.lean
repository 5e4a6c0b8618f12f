import Backplane.Contract.Scoring
import Mathlib.Algebra.Order.BigOperators.Group.List
import Mathlib.Algebra.Order.Ring.Int
/-!
# `Backplane.Proofs.Contract.Scoring`: what awards come to

Points are added one award after another, and held within bounds each time, so in general their
order matters.  It does not in two cases.

    no sum on the way is out of bounds      nothing is ever cut off: the sum itself
    no two awards have opposite signs       what is cut off once stays cut off: the sum, cut off

The prize is that of the first award that names one.

Awards are `KillReward`s, added up by `award_kill`.
-/
namespace Backplane

/-- Whether a number of points needs no cutting off. -/
def InBounds (n : Int) : Prop := leastPoints ≤ n ∧ n ≤ mostPoints

/-- Points in addition to others. -/
def addPoints (n more : Int) : Int := saturate (n + more)

variable {n more : Int} {ps : List Int}

theorem saturate_eq (h : InBounds n) : saturate n = n := by
  obtain ⟨hleast, hmost⟩ := h
  rw [saturate]
  omega

/-! ## Sums of points -/

/-- Points of which no sum on the way is out of bounds add up. -/
theorem foldl_addPoints_eq (h : ∀ taken, taken <+: ps → InBounds (n + taken.sum)) :
    ps.foldl addPoints n = n + ps.sum := by
  induction ps generalizing n with
  | nil => simp
  | cons p ps ih =>
      have hp : addPoints n p = n + p := saturate_eq (by simpa using h [p] (by simp))
      have hrest : ∀ taken, taken <+: ps → InBounds (n + p + taken.sum) := by
        intro taken htaken
        have hall := h (p :: taken) (List.cons_prefix_cons.mpr ⟨rfl, htaken⟩)
        rwa [List.sum_cons, ← Int.add_assoc] at hall
      rw [List.foldl_cons, hp, ih hrest, List.sum_cons, Int.add_assoc]

theorem sum_nonpos (h : ∀ p ∈ ps, p ≤ 0) : ps.sum ≤ 0 := by
  simpa using List.sum_le_card_nsmul ps 0 h

/-- Whether points are all gains or all losses. -/
def OneWay (ps : List Int) : Prop := (∀ p ∈ ps, 0 ≤ p) ∨ ∀ p ∈ ps, p ≤ 0

/-- Points of which no two have opposite signs go one way. -/
theorem oneWay_of_no_opposites (h : ∀ p ∈ ps, ∀ q ∈ ps, ¬ (p < 0 ∧ 0 < q)) : OneWay ps := by
  by_cases hneg : ∃ p ∈ ps, p < 0
  · obtain ⟨p, hp, hlt⟩ := hneg
    exact .inr fun q hq => by
      have hnot := h p hp q hq
      omega
  · exact .inl fun p hp => by
      have hnot : ¬ p < 0 := fun hlt => hneg ⟨p, hp, hlt⟩
      omega

/-- Points that go one way are cut off at most once, and then stay so. -/
theorem foldl_addPoints_oneWay (h : OneWay ps) (hn : InBounds n) :
    ps.foldl addPoints n = saturate (n + ps.sum) := by
  induction ps generalizing n with
  | nil => simp [saturate_eq hn]
  | cons p ps ih =>
      have hways : (0 ≤ p ∧ ∀ q ∈ ps, 0 ≤ q) ∨ (p ≤ 0 ∧ ∀ q ∈ ps, q ≤ 0) :=
        h.imp List.forall_mem_cons.mp List.forall_mem_cons.mp
      have hsigns : 0 ≤ p ∧ 0 ≤ ps.sum ∨ p ≤ 0 ∧ ps.sum ≤ 0 :=
        hways.imp (And.imp_right List.sum_nonneg) (And.imp_right sum_nonpos)
      have hrest : OneWay ps := hways.imp And.right And.right
      have hnext : InBounds (addPoints n p) := by
        simp only [InBounds, addPoints, saturate, leastPoints, mostPoints]
        omega
      rw [List.foldl_cons, ih hrest hnext, List.sum_cons]
      simp only [InBounds, addPoints, saturate, leastPoints, mostPoints] at hn ⊢
      omega

/-! ## Totals -/

namespace Award

variable {award : Award} {awards : List Award}

theorem points_foldl : (awards.foldl add award).points =
    (awards.map (·.points)).foldl addPoints award.points := by
  induction awards generalizing award with
  | nil => rfl
  | cons a awards ih => exact ih

theorem prize_foldl : (awards.foldl add award).prize =
    award.prize.or (awards.findSome? (·.prize)) := by
  induction awards generalizing award with
  | nil => simp
  | cons a awards ih =>
      rw [List.foldl_cons, ih, List.findSome?_cons, add]
      cases award.prize with
      | some prize => rfl
      | none => cases a.prize <;> rfl

/-- Whether an award is what awards made in order come to. -/
structure Totals (awards : List Award) (total : Award) : Prop where
  fold : total.points = awards.foldl (fun n a => saturate (n + a.points)) 0
  /-- Nothing is cut off unless a sum on the way is out of bounds. -/
  exact : (∀ taken, taken <+: awards.map (·.points) → InBounds taken.sum) →
    total.points = (awards.map (·.points)).sum
  /-- Gains alone, or losses alone, are cut off at the end. -/
  clamped : (∀ a ∈ awards, ∀ b ∈ awards, ¬ (a.points < 0 ∧ 0 < b.points)) →
    total.points = saturate (awards.map (·.points)).sum
  prize : total.prize = awards.findSome? (·.prize)

theorem totals_total (awards : List Award) : Totals awards (total awards) where
  fold := by
    rw [total, points_foldl, List.foldl_map]
    rfl
  exact := fun h => by
    rw [total, points_foldl, foldl_addPoints_eq fun taken htaken => ?_]
    · exact Int.zero_add _
    · simpa using h taken htaken
  clamped := fun h => by
    have hway : OneWay (awards.map (·.points)) := oneWay_of_no_opposites (by simpa using h)
    have hnone : InBounds 0 := ⟨by decide, by decide⟩
    rw [total, points_foldl]
    show (awards.map (·.points)).foldl addPoints 0 = _
    rw [foldl_addPoints_oneWay hway hnone, Int.zero_add]
  prize := by
    rw [total, prize_foldl]
    rfl

/-- A loss after what has been cut off comes off the bound: the order matters. -/
example : (total [⟨mostPoints, none⟩, ⟨5, some 7⟩, ⟨-5, some 9⟩] = ⟨mostPoints - 5, some 7⟩) ∧
    total [⟨mostPoints, none⟩, ⟨-5, some 9⟩, ⟨5, some 7⟩] = ⟨mostPoints, some 9⟩ := by decide

end Award

end Backplane
