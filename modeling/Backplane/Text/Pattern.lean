import Backplane.Text.Alphanumeric
import Backplane.Text.Pattern.Bracket
/-!
# `Backplane.Text.Pattern`: well-formed patterns

A pattern is a regular expression: alternatives, groups, classes in brackets, escapes, and
repetitions, each of which needs something to repeat.  Here is only decided which texts are
patterns: all of their parts can be matched, and they are not nested too deeply.

An `EnvFilter` takes such a text as the value of a field.
-/
namespace Backplane.Pattern

/-! ## Groups -/

/-- Whether a text can be the name of a group. -/
def isGroupName : List Char → Bool
  | [] => false
  | c :: rest =>
    (c = '_' || isLetter c) && rest.all fun c => isAlphanumeric c || ['_', '.', '[', ']'].contains c

/-- What begins with a parenthesis. -/
inductive Opening
  | group (mode : Mode) (name : Option (List Char))
  /-- Switches for the rest of the group around. -/
  | switches (mode : Mode)

/-- Reads the name of a group up to its closing angle. -/
def groupName? (m : Mode) (cs : List Char) : Option (Opening × List Char) :=
  match cs.span (· ≠ '>') with
  | (name, '>' :: rest) => if isGroupName name then some (.group m (some name), rest) else none
  | _ => none

/-- Reads the switches of a group, or switches alone, of which there has to be one. -/
def switched? (m : Mode) (cs : List Char) : Option (Opening × List Char) := do
  let (mode, last, rest) ← Mode.read? [] false m cs
  if last = ':' then some (.group mode none, rest)
  else if cs.head? = some ')' then none
  else some (.switches mode, rest)

/-- Reads what follows a parenthesis.  There is no looking ahead or back. -/
def opening? (m : Mode) (cs : List Char) : Option (Opening × List Char) :=
  match m.skip cs with
  | '?' :: '<' :: '!' :: _ => none
  | '?' :: '<' :: '=' :: _ => none
  | '?' :: 'P' :: '<' :: rest => groupName? m rest
  | '?' :: '<' :: rest => groupName? m rest
  | '?' :: rest => switched? m rest
  | rest => some (.group m none, rest)

/-! ## Whole patterns -/

/-- How far a pattern has been read. -/
structure Progress where
  mode : Mode := {}
  scope : Scope := {}
  /-- The groups that are open, each as it was before it was opened. -/
  outer : List (Mode × Scope) := []
  names : List (List Char) := []

namespace Progress

/-- The progress after a part that can be repeated. -/
def part (p : Progress) (depth : Nat) : Progress := { p with scope := p.scope.part depth }

/-- The progress after what begins with a parenthesis; the names of groups differ. -/
def enter? (p : Progress) : Opening → Option Progress
  | .switches m => some { p with mode := m, scope := p.scope.switched }
  | .group m none => some { p with mode := m, scope := {}, outer := (p.mode, p.scope) :: p.outer }
  | .group m (some name) =>
    if p.names.contains name then none
    else some { mode := m, outer := (p.mode, p.scope) :: p.outer, names := name :: p.names }

/-- The progress after the end of a group. -/
def leave? (p : Progress) : Option Progress :=
  match p.outer with
  | [] => none
  | (mode, scope) :: outer => some { p with mode, scope := scope.part (p.scope.depth + 1), outer }

/-- Reads a part; an interval after a part is not accepted, since its braces cannot be closed. -/
def step? (p : Progress) : List Char → Option (Progress × List Char)
  | [] => none
  | '(' :: rest => do
    let (o, after) ← opening? p.mode rest
    return (← p.enter? o, after)
  | ')' :: rest => p.leave?.map (·, rest)
  | '|' :: rest => some ({ p with scope := p.scope.divide }, rest)
  | '[' :: rest => (bracketed? p.mode rest).map fun r => (p.part r.1, r.2)
  | '\\' :: rest => do
    let (a, after) ← escaped? p.mode rest
    if a.isMatchable p.mode then some (p.part 0, after) else none
  | c :: rest =>
    if c = '*' || c = '+' || c = '?' then
      p.scope.repeat?.map fun scope => ({ p with scope }, if rest.head? = some '?' then rest.drop 1 else rest)
    else if c = '\x7b' then none
    else if c = '.' then (if p.mode.unicode then some (p.part 0, rest) else none)
    else if c = '^' || c = '$' || Atom.isMatchable p.mode (.char c) then some (p.part 0, rest)
    else none

/-- Whether the rest of a pattern is well-formed. -/
def completes : Nat → Progress → List Char → Bool
  | 0, _, _ => false
  | fuel + 1, p, cs =>
    match p.mode.skip cs with
    | [] => p.outer.isEmpty && p.scope.depth ≤ nestingLimit
    | cs =>
      match p.step? cs with
      | some (q, rest) => completes fuel q rest
      | none => false

end Progress

/-- Whether a text without closing braces is a pattern. -/
def isWellFormed (text : List Char) : Bool := Progress.completes (text.length + 1) {} text

end Backplane.Pattern
