/-!
# `Backplane.Text.Ranges`: sets of code points as ranges

A property of characters is a list of ranges of code points, ends included, in ascending order.

What the `WordListFilter` asks of a character is asked of such a list.
-/
namespace Backplane

/-- Ranges of code points, ends included, in ascending order. -/
abbrev Ranges := List (Nat × Nat)

namespace Ranges

def covers : Ranges → Nat → Bool
  | [], _ => false
  | (lo, hi) :: rest, n => if n < lo then false else if n ≤ hi then true else covers rest n

def has (r : Ranges) (c : Char) : Bool := r.covers c.toNat

end Ranges

end Backplane
