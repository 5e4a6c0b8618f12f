/-!
# `Backplane.Registry.Usage`: how a registration is used

A registration counts its outstanding references.  It can only retire while nobody refers to it, and
nobody can take a reference while it is retired.

This models the `RefCount`.
-/
namespace Backplane

/-- The use made of a registration. -/
structure Usage where
  /-- The number of references not yet given back. -/
  outstanding : Nat := 0
  /-- Whether lookups pass the registration by. -/
  retired : Bool := false
deriving DecidableEq, Repr

namespace Usage

/-- A registration nobody has looked up yet. -/
def fresh : Usage := {}

/-- Takes a reference, unless the registration is retired. -/
def acquire (u : Usage) : Option Usage :=
  if u.retired then none else some { u with outstanding := u.outstanding + 1 }

/-- Gives a reference back, if there is one. -/
def release (u : Usage) : Option Usage :=
  match u.outstanding with
  | 0 => none
  | n + 1 => some { u with outstanding := n }

/-- Retires, or fails with the number of references that stand in the way. -/
def retire (u : Usage) : Except Nat Usage :=
  match u.outstanding with
  | 0 => .ok { u with retired := true }
  | n + 1 => .error (n + 1)

/-- Takes a retirement back. -/
def restore (u : Usage) : Usage := { u with retired := false }

end Usage

end Backplane
