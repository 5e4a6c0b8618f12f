import Backplane.Text.Pattern.Atom
import Backplane.Text.Pattern.Nesting
/-!
# `Backplane.Text.Pattern.Bracket`: classes in brackets

A class has members, ranges and classes as its members, and operators that join them.  It is read to
its end, and its depth is found on the way.

This is what an `EnvFilter` takes.
-/
namespace Backplane.Pattern

def classNames : List String :=
  ["alnum", "alpha", "ascii", "blank", "cntrl", "digit", "graph", "lower", "print", "punct", "space",
    "upper", "word", "xdigit"]

/-- Reads a named class after its bracket: whether it is negated, and the rest. -/
def named? : List Char → Option (Bool × List Char)
  | ':' :: rest =>
    let negated := rest.head? = some '^'
    let body := if negated then rest.drop 1 else rest
    match body.span (· ≠ ':') with
    | (name, ':' :: ']' :: after) =>
      if classNames.contains (String.ofList name) then some (negated, after) else none
    | _ => none
  | _ => none

/-- Whether a class is allowed: one that is not empty cannot be caseless over all characters, and
one that is negated cannot be one of bytes. -/
def allowsClass (m : Mode) (negated : Bool) : Bool := if m.unicode then !m.caseless else !negated

/-- Whether a character can be in a class: in one of bytes it has to be a single byte. -/
def isMemberChar (m : Mode) (c : Char) : Bool := if m.unicode then !m.caseless else c.toNat < 0x80

/-- Skips the hyphens at the beginning of a class, each of which is a member. -/
def skipHyphens (m : Mode) : Bracket → List Char → Bracket × List Char
  | b, [] => (b, [])
  | b, c :: rest =>
    if m.verbose && isWhite c then skipHyphens m b rest
    else if c = '-' then skipHyphens m (b.add 0) rest
    else (b, c :: rest)

/-- Reads the beginning of a class after its bracket: the sign of negation, then hyphens, or a
closing bracket that stands for itself. -/
def opened? (m : Mode) (cs : List Char) : Option (Bracket × List Char) :=
  let cs := m.skip cs
  let negated := cs.head? = some '^'
  let (b, rest) := skipHyphens m {} (m.skip (if negated then cs.drop 1 else cs))
  if negated && !m.unicode then none
  else if b.members.size ≠ 0 then (if isMemberChar m '-' then some (b, rest) else none)
  else
    match rest with
    | ']' :: after => if isMemberChar m ']' then some (b.add 0, after) else none
    | _ => some (b, rest)

/-- Reads an end of a range, or a member that is no range. -/
def member? (m : Mode) : List Char → Option (Atom × List Char)
  | [] => none
  | '\\' :: rest => escaped? m rest
  | c :: rest => some (.char c, rest)

/-- Whether a part may be a member of a class. -/
def isMember (m : Mode) (a : Atom) : Bool :=
  match a with
  | .char c => isMemberChar m c
  | .byte c => isMemberChar m c
  | .classLetter _ => a.isMatchable m
  | .wordBoundary => false
  | .textBoundary => false

/-- The rest after a range, whose hyphen was read. -/
def range? (m : Mode) (first : Atom) (cs : List Char) : Option (List Char) := do
  let (last, rest) ← member? m (m.skip cs)
  let a ← first.char?
  let b ← last.char?
  if a ≤ b && isMember m first && isMember m last then some rest else none

/-- Reads a range or a single member. -/
def members? (m : Mode) (cs : List Char) : Option (List Char) := do
  let (first, rest) ← member? m cs
  let single := if isMember m first then some rest else none
  match m.skip rest with
  | '-' :: after =>
    match m.skip after with
    | ']' :: _ => single
    | '-' :: _ => single
    | _ => range? m first after
  | _ => single

/-- Reads the inside of a class up to the bracket that closes it, with the classes that are open
around it: its depth, and the rest.  Two of `&`, `-` or `~` join parts of a class. -/
def class? (m : Mode) : Nat → Bracket → List Bracket → List Char → Option (Nat × List Char)
  | 0, _, _, _ => none
  | fuel + 1, b, outer, cs =>
    match m.skip cs with
    | [] => none
    | ']' :: rest =>
      match outer with
      | [] => some (b.depth, rest)
      | o :: outer => class? m fuel (o.add b.depth) outer rest
    | '[' :: rest =>
      match named? rest with
      | some (negated, after) => if allowsClass m negated then class? m fuel (b.add 0) outer after else none
      | none => (opened? m rest).bind fun r => class? m fuel r.1 (b :: outer) r.2
    | '&' :: '&' :: rest => class? m fuel b.join outer rest
    | '-' :: '-' :: rest => class? m fuel b.join outer rest
    | '~' :: '~' :: rest => class? m fuel b.join outer rest
    | cs => (members? m cs).bind (class? m fuel (b.add 0) outer)

/-- Reads a class after its bracket: its depth, and the rest. -/
def bracketed? (m : Mode) (cs : List Char) : Option (Nat × List Char) :=
  (opened? m cs).bind fun r => class? m (cs.length + 1) r.1 [] r.2

end Backplane.Pattern
