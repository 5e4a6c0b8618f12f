/-!
# `Backplane.Text.Pattern.Nesting`: how deeply a pattern is nested

A part without parts has depth 0, and a part is one deeper than the deepest of its own.  Groups,
repetitions and classes in brackets are such parts, and so is a row: parts one after another,
alternatives, or the members of a class.  A row of a single part is that part.

Its bound is that of an `EnvFilter`.
-/
namespace Backplane.Pattern

def nestingLimit : Nat := 250

/-- What is known of a row: how many parts it has, and how deep the deepest is. -/
structure Row where
  size : Nat := 0
  deepest : Nat := 0
deriving DecidableEq, Repr

namespace Row

/-- The row with one part more, of a given depth. -/
def add (r : Row) (depth : Nat) : Row := ⟨r.size + 1, max r.deepest depth⟩

/-- How deep a row is. -/
def depth (r : Row) : Nat := if r.size ≤ 1 then r.deepest else r.deepest + 1

end Row

/-- What has been read of a class in brackets. -/
structure Bracket where
  /-- How deep the parts are that an operator stands after. -/
  joined : Option Nat := none
  members : Row := {}
deriving DecidableEq, Repr

namespace Bracket

/-- The class with one member more. -/
def add (b : Bracket) (depth : Nat) : Bracket := { b with members := b.members.add depth }

/-- How deep the inside of a class is. -/
def inside (b : Bracket) : Nat := b.joined.elim b.members.depth fun d => max d b.members.depth + 1

/-- The class after an operator: what stands before it is one part. -/
def join (b : Bracket) : Bracket := { joined := some b.inside }

/-- How deep the class is. -/
def depth (b : Bracket) : Nat := b.inside + 1

end Bracket

structure Scope where
  /-- The alternatives that are complete. -/
  alternatives : Row := {}
  /-- The parts of the alternative that is being read, without the last one if that can be
  repeated. -/
  parts : Row := {}
  /-- How deep the last part is, if it can be repeated. -/
  last : Option Nat := none
deriving DecidableEq, Repr

namespace Scope

/-- All parts of the alternative that is being read. -/
def row (s : Scope) : Row := s.last.elim s.parts s.parts.add

/-- The scope after a part that can be repeated. -/
def part (s : Scope) (depth : Nat) : Scope := { s with parts := s.row, last := some depth }

/-- The scope after switches, which are a part that cannot be repeated. -/
def switched (s : Scope) : Scope := { s with parts := s.row.add 0, last := none }

/-- The scope after its last part is repeated. -/
def repeat? (s : Scope) : Option Scope := s.last.map fun d => { s with last := some (d + 1) }

/-- The scope where an alternative ends. -/
def divide (s : Scope) : Scope := { alternatives := s.alternatives.add s.row.depth }

/-- How deep the inside of a group is. -/
def depth (s : Scope) : Nat := s.divide.alternatives.depth

end Scope

end Backplane.Pattern
