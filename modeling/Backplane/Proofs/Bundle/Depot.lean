import Backplane.Bundle.Depot
import Backplane.Proofs.Keyed
/-!
# `Backplane.Proofs.Bundle.Depot`: what a reference leads to

Resolving a reference may open a library, and units are numbered in the order of opening.  All that
it can come to is in `Resolves`.  Apart from its number, what another reference leads to stays the
same.

It is `resolve` of the `UnitResolver`.
-/
namespace Backplane

/-- A unit, whenever it was opened. -/
def ResolvedUnit.origin (u : ResolvedUnit) : String × Bundle := (u.reference, u.bundle)

namespace Depot

variable {d : Depot} {a b : Option String} {r : String} {u : ResolvedUnit}

/-- What a reference leads to, apart from the number of the unit. -/
def origin (d : Depot) (a : Option String) : Except PlanError (String × Bundle) :=
  (d.resolve a).1.map ResolvedUnit.origin

/-- What is found where no unit has been opened for a reference. -/
def fresh (d : Depot) (r : String) : Except PlanError (String × Bundle) :=
  ((d.load (Reference.locate d.folder r)).map fun b => (r, b)).mapError (.unitNotFound r)

/-- What a reference is reported as. -/
def label (a : Option String) : String := a.getD builtinName

/-- What there is for a reference without opening anything. -/
def known? (d : Depot) (a : Option String) : Option ResolvedUnit :=
  if label a = builtinName then some d.builtinUnit else Keyed.get? d.opened (label a)

/-- The depot with one more unit. -/
def keep (d : Depot) (u : ResolvedUnit) : Depot :=
  { d with opened := d.opened ++ [(u.reference, u)] }

theorem known?_builtin (h : label a = builtinName) : d.known? a = some d.builtinUnit := if_pos h

theorem known?_of_ne (h : label a ≠ builtinName) : d.known? a = Keyed.get? d.opened (label a) :=
  if_neg h

theorem known?_some (h : r ≠ builtinName) : d.known? (some r) = Keyed.get? d.opened r := if_neg h

theorem known?_keep :
    (d.keep u).known? a = (d.known? a).or (if u.reference = label a then some u else none) := by
  by_cases hbuiltin : label a = builtinName
  · rw [known?_builtin hbuiltin, known?_builtin hbuiltin]
    rfl
  · rw [known?_of_ne hbuiltin, known?_of_ne hbuiltin, keep, Keyed.get?_append]
    by_cases hlabel : u.reference = label a <;> simp [Keyed.get?, hlabel]

/-- What resolving a reference comes to: what is found, the answer, and the depot then. -/
inductive Resolves (d : Depot) (a : Option String) :
    Finding → Except PlanError ResolvedUnit × Depot → Prop
  | known {u : ResolvedUnit} (h : d.known? a = some u) : d.Resolves a (.known u) (.ok u, d)
  | opened {u : ResolvedUnit} {path : String} (h : d.known? a = none) (hr : u.reference = label a)
      (hf : d.fresh (label a) = .ok u.origin) (hs : u.serial = d.opened.length + 1) :
      d.Resolves a (.opened u path) (.ok u, d.keep u)
  | failed {fault : LibraryFault} {path : String} (h : d.known? a = none)
      (hf : d.fresh (label a) = .error (.unitNotFound (label a) fault)) :
      d.Resolves a (.failed fault path) (.error (.unitNotFound (label a) fault), d)

theorem resolves (d : Depot) (a : Option String) : d.Resolves a (d.find a) (d.resolve a) := by
  cases a with
  | none => exact .known rfl
  | some r =>
      by_cases hr : r = builtinName
      · subst hr
        exact .known rfl
      · have hknown : d.known? (some r) = Keyed.get? d.opened r := known?_some hr
        cases hget : Keyed.get? d.opened r with
        | some u =>
            simp only [resolve, find, hr, hget, if_false]
            exact .known (hknown.trans hget)
        | none =>
            simp only [resolve, find, hr, hget, if_false]
            have hfresh : d.fresh (label (some r)) = d.fresh r := rfl
            cases hload : d.load (Reference.locate d.folder r) with
            | ok b => exact .opened (hknown.trans hget) rfl (by rw [hfresh, fresh, hload]; rfl) rfl
            | error fault => exact .failed (hknown.trans hget) (by rw [hfresh, fresh, hload]; rfl)

theorem origin_eq : d.origin a = (d.known? a).elim (d.fresh (label a)) (.ok ·.origin) := by
  have hres := d.resolves a
  rw [origin]
  generalize d.find a = f, d.resolve a = x at hres ⊢
  cases hres with
  | known h =>
      rw [h]
      rfl
  | opened h hr hf =>
      rw [h]
      exact hf.symm
  | failed h hf =>
      rw [h]
      exact hf.symm

/-- Resolving one reference does not change what another leads to. -/
theorem origin_resolve : (d.resolve a).2.origin b = d.origin b := by
  have hres := d.resolves a
  generalize d.find a = f, d.resolve a = x at hres ⊢
  cases hres with
  | known => rfl
  | failed => rfl
  | @opened u path h hr hf hs =>
      rw [origin_eq, origin_eq, known?_keep]
      cases d.known? b with
      | some v => rfl
      | none =>
          by_cases hlabel : u.reference = label b
          · rw [if_pos hlabel, ← hlabel, hr]
            exact hf.symm
          · rw [if_neg hlabel]
            rfl

end Depot

end Backplane
