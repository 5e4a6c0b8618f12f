/-!
# `Backplane.Distinct`: lists without repetition

`plan_config` joins the dependencies of a module in this way.
-/
namespace Backplane

/-- Each element where it occurs first. -/
def distinct {α : Type} [DecidableEq α] : List α → List α
  | [] => []
  | x :: xs => x :: (distinct xs).filter fun y => y ≠ x

end Backplane
