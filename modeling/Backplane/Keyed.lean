/-!
# `Backplane.Keyed`: lists of pairs with distinct keys

A key has at most one value, so putting one in takes any earlier one out.

The `lists` of the `AdvisorRegistry`, the units of the `UnitResolver` and whatever is held by name
are kept so.
-/
namespace Backplane.Keyed

variable {κ ν : Type} [DecidableEq κ]

def get? (xs : List (κ × ν)) (k : κ) : Option ν := (xs.find? fun x => x.1 = k).map (·.2)

def erase (xs : List (κ × ν)) (k : κ) : List (κ × ν) := xs.filter fun x => x.1 ≠ k

/-- Gives a key a value. -/
def put (xs : List (κ × ν)) (k : κ) (v : ν) : List (κ × ν) := erase xs k ++ [(k, v)]

/-- Changes the value of a key, in its place. -/
def modify (xs : List (κ × ν)) (k : κ) (f : ν → ν) : List (κ × ν) :=
  xs.map fun x => if x.1 = k then (x.1, f x.2) else x

def has (xs : List (κ × ν)) (k : κ) : Bool := (get? xs k).isSome

end Backplane.Keyed
