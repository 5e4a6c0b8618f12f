import Backplane.Text.Blank
import Backplane.Text.Hex
/-!
# `Backplane.Text.Pattern.Atom`: the single parts of a pattern

An atom stands for one character or one place.  Which atoms can be matched depends on the switches
that are on where it stands.  Matching is done over bytes of valid text and knows no tables of
characters.  So letters for classes stand for ASCII characters and only where Unicode is switched
off, and so do word boundaries; and only there can characters be matched without regard to case.

This is what an `EnvFilter` takes.
-/
namespace Backplane.Pattern

/-! ## Switches -/

/-- How a part of a pattern is to be read. -/
structure Mode where
  unicode : Bool := true
  caseless : Bool := false
  /-- Blanks and comments between the parts are skipped. -/
  verbose : Bool := false
deriving DecidableEq, Repr

namespace Mode

def switches : List Char := ['i', 'm', 's', 'U', 'u', 'R', 'x']

/-- Turns a switch on or off. -/
def turn (m : Mode) (switch : Char) (on : Bool) : Mode :=
  match switch with
  | 'u' => { m with unicode := on }
  | 'i' => { m with caseless := on }
  | 'x' => { m with verbose := on }
  | _ => m

/-- Skips blanks and comments; `comment` if inside one. -/
def skipVerbose : Bool → List Char → List Char
  | _, [] => []
  | true, c :: rest => skipVerbose (c ≠ '\n') rest
  | false, c :: rest =>
    if c = '#' then skipVerbose true rest else if isWhite c then skipVerbose false rest else c :: rest

/-- Skips what the mode lets stand between parts. -/
def skip (m : Mode) (cs : List Char) : List Char := if m.verbose then skipVerbose false cs else cs

/-- Reads switches up to the character that ends them, a colon or a parenthesis; `minus` after the
minus sign.  No switch may be repeated, and the minus sign needs a switch. -/
def read? (seen : List Char) (minus : Bool) : Mode → List Char → Option (Mode × Char × List Char)
  | _, [] => none
  | m, c :: rest =>
    if c = ':' || c = ')' then (if seen.head? = some '-' then none else some (m, c, rest))
    else if seen.contains c then none
    else if c = '-' then read? ('-' :: seen) true m rest
    else if switches.contains c then read? (c :: seen) minus (m.turn c !minus) rest
    else none

end Mode

/-! ## Single parts -/

inductive Atom
  | char (c : Char)
  /-- A character by a code of two digits: a byte where Unicode is switched off. -/
  | byte (c : Char)
  /-- A letter for a class of ASCII characters, or for all others. -/
  | classLetter (negated : Bool)
  | wordBoundary
  | textBoundary
deriving DecidableEq, Repr

/-- The character that a part stands for. -/
def Atom.char? : Atom → Option Char
  | char c => some c
  | byte c => some c
  | _ => none

/-- Whether a part can be matched.  A byte that is no character of its own is no text. -/
def Atom.isMatchable (m : Mode) : Atom → Bool
  | char _ => !m.unicode || !m.caseless
  | byte c => if m.unicode then !m.caseless else c.toNat < 0x80
  | classLetter negated => !m.unicode && !negated
  | wordBoundary => !m.unicode
  | textBoundary => true

/-- Reads hexadecimal digits. -/
def hexDigits? (m : Mode) : Nat → List Char → Option (List Char × List Char)
  | 0, cs => some ([], cs)
  | n + 1, cs =>
    match m.skip cs with
    | c :: rest =>
      if (Hex.value? c).isSome then (hexDigits? m n rest).map fun r => (c :: r.1, r.2) else none
    | [] => none

/-- Reads a character by its code, of so many digits. -/
def coded? (m : Mode) (make : Char → Atom) (width : Nat) (cs : List Char) : Option (Atom × List Char) := do
  let (digits, rest) ← hexDigits? m width cs
  let n ← Hex.read? digits
  if n.isValidChar then some (make (Char.ofNat n), rest) else none

/-- Whether a character may be escaped to stand for itself. -/
def isEscapable (c : Char) : Bool :=
  c.toNat < 0x80 && !c.isAlphanum && c ≠ '<' && c ≠ '>'

def escaped? (m : Mode) : List Char → Option (Atom × List Char)
  | [] => none
  | 'x' :: rest => coded? m .byte 2 rest
  | 'u' :: rest => coded? m .char 4 rest
  | 'U' :: rest => coded? m .char 8 rest
  | c :: rest =>
    if ['d', 's', 'w'].contains c then some (.classLetter false, rest)
    else if ['D', 'S', 'W'].contains c then some (.classLetter true, rest)
    else if ['b', 'B', '<', '>'].contains c then some (.wordBoundary, rest)
    else if ['A', 'z'].contains c then some (.textBoundary, rest)
    else if ['a', 'f', 't', 'n', 'r', 'v'].contains c || isEscapable c then some (.char c, rest)
    else none

end Backplane.Pattern
