import Backplane.Log
import Backplane.Text.Pattern
/-!
# `Backplane.Zone.LogFilter`: which events are logged

A filter is a list of directives, separated by commas.  A directive `target=level` lets events
through whose origin begins with the target, from the given level on; without a level it lets all of
them through, and a level alone is for every origin.  In brackets a directive may ask for a field,
in braces, and concerns only events that have it; it may also name a span or the value of a field,
and then concerns no event.  Of the directives that concern an event the one with the longest target
decides.

This models the `EnvFilter` that `setup_logging` makes.
-/
namespace Backplane.Zone

inductive Threshold
  | off
  | atLeast (level : Level)
deriving DecidableEq, Repr

namespace Threshold

def allows : Threshold → Level → Bool
  | off, _ => false
  | atLeast l, x => l.rank ≤ x.rank

/-- The threshold of a number. -/
def ofNumber? : Nat → Option Threshold
  | 0 => some off
  | 1 => some (atLeast .error)
  | 2 => some (atLeast .warn)
  | 3 => some (atLeast .info)
  | 4 => some (atLeast .debug)
  | 5 => some (atLeast .trace)
  | _ => none

/-- The number that digits spell, after a plus sign or without one. -/
def number? (cs : List Char) : Option Nat :=
  let digits := match cs with
    | '+' :: rest => rest
    | _ => cs
  if digits.isEmpty || !digits.all Char.isDigit then none
  else some (digits.foldl (fun n c => 10 * n + (c.toNat - 48)) 0)

/-- The threshold of a word, in letters of either case, or of a number. -/
def ofText? (cs : List Char) : Option Threshold :=
  match (number? cs).bind ofNumber? with
  | some t => some t
  | none =>
    let word := String.ofList (cs.map Char.toLower)
    if word = "off" then some off else (Level.ofWord? word).map atLeast

end Threshold

inductive Directive
  /-- For events whose origin begins with the target and that have the field. -/
  | events (target field : Option String) (threshold : Threshold)
  /-- For spans of a name, or whose fields have values. -/
  | spans
deriving DecidableEq, Repr

namespace Directive

/-! ## Values of fields -/

/-- Whether digits are followed by an exponent or nothing. -/
def isExponent : List Char → Bool
  | [] => true
  | c :: rest =>
    let digits := if rest.head? = some '+' || rest.head? = some '-' then rest.drop 1 else rest
    (c = 'e' || c = 'E') && !digits.isEmpty && digits.all Char.isDigit

/-- Whether a text without a sign is a number, infinite or none at all. -/
def isUnsignedNumber (cs : List Char) : Bool :=
  let (whole, rest) := cs.span Char.isDigit
  let (places, last) := match rest with
    | '.' :: after => after.span Char.isDigit
    | _ => ([], rest)
  ["inf", "infinity", "nan"].contains (String.ofList (cs.map Char.toLower))
    || (!(whole.isEmpty && places.isEmpty) && isExponent last)

/-- Whether a text can be the value of a field: a pattern, or a number, which is no pattern if it
begins with a plus sign. -/
def isValue : List Char → Bool
  | '+' :: rest => isUnsignedNumber rest
  | cs => Pattern.isWellFormed cs

/-! ## Reading -/

def size (cs : List Char) : Nat := cs.foldr (fun c n => c.utf8Size + n) 0

/-- A text after the characters that begin in its first `n` bytes. -/
def dropBytes : Nat → List Char → List Char
  | _, [] => []
  | 0, cs => cs
  | n + 1, c :: rest => dropBytes (n + 1 - c.utf8Size) rest

/-- The characters that begin in the first `n` bytes of a text. -/
def takeBytes : Nat → List Char → List Char
  | _, [] => []
  | 0, _ => []
  | n + 1, c :: rest => c :: takeBytes (n + 1 - c.utf8Size) rest

def between (text : List Char) (start stop : Nat) : List Char :=
  takeBytes (stop - start) (dropBytes start text)

/-- The characters that a target may begin with. -/
def mayBegin (c : Char) : Bool := c = '-' || c = ':' || c = '_' || isAlphanumeric c

/-- The threshold after an equals sign; everything if nothing follows. -/
def threshold? (cs : List Char) : Option Threshold :=
  if cs.isEmpty then some (.atLeast .trace) else Threshold.ofText? cs

/-- The threshold after the bracket that closes a span, `stop` being the place of what follows. -/
def afterSpan? (text : List Char) (stop : Nat) : List Char → Option Threshold
  | [] => some (.atLeast .trace)
  | '=' :: _ => threshold? (dropBytes (stop + 1) text)
  | _ => none

/-- A directive on a field, which is a name or a name with a value. -/
def onField? (target : Option String) (field : List Char) (t : Threshold) : Option Directive :=
  match field.span (· ≠ '=') with
  | ([], []) => none
  | (name, []) => some (.events target (some (String.ofList name)) t)
  | (_, _ :: value) => if isValue (value.takeWhile (· ≠ '=')) then some .spans else none

/-- Reads a span after its bracket, at the place `start`: a name, and a field in braces. -/
def span? (text : List Char) (target : Option String) (start : Nat) (cs : List Char) : Option Directive :=
  let name := cs.takeWhile fun c => c ≠ ']' && c ≠ '\x7b'
  let mid := start + size name
  match cs.drop name.length with
  | ']' :: rest => (afterSpan? text (mid + 1) rest).map fun _ => .spans
  | '\x7b' :: inner =>
    let field := inner.takeWhile (· ≠ '\x7d')
    let stop := mid + 1 + size field
    match inner.drop field.length with
    | '\x7d' :: ']' :: rest => do
      let t ← afterSpan? text (stop + 2) rest
      let d ← onField? target (between text (mid + 1) stop) t
      return if (between text start mid).isEmpty then d else .spans
    | _ => none
  | _ => none

def bare (cs : List Char) : Directive :=
  match Threshold.ofText? cs with
  | some t => .events none none t
  | none => .events (some (String.ofList cs)) none (.atLeast .trace)

/-- Reads a directive.  Its parts are found in the text without the blanks around it, but cut out of
the whole text at the places found. -/
def read? (text : List Char) : Option Directive :=
  let trimmed := (trimStart (trimEnd (String.ofList text))).toList
  match trimmed with
  | [] => none
  | '[' :: rest => span? text none 1 rest
  | c :: _ =>
    if mayBegin c then
      let name := trimmed.takeWhile fun c => c ≠ '=' && c ≠ '['
      let target := some (String.ofList (takeBytes (size name) text))
      match trimmed.drop name.length with
      | '=' :: _ => (threshold? (dropBytes (size name + 1) text)).map (.events target none)
      | '[' :: rest => span? text target (size name + 1) rest
      | _ => some (bare text)
    else none

end Directive

structure LogFilter where
  directives : List Directive
deriving DecidableEq, Repr

namespace LogFilter

/-- The filter for one level. -/
def ofLevel (l : Level) : LogFilter := ⟨[.events none none (.atLeast l)]⟩

def cutCommas : List Char → List (List Char)
  | [] => [[]]
  | c :: rest =>
    match c, cutCommas rest with
    | ',', parts => [] :: parts
    | c, part :: parts => (c :: part) :: parts
    | c, [] => [[c]]

def read? (text : String) : Option LogFilter := do
  let directives ← ((cutCommas text.toList).filter (· ≠ [])).mapM Directive.read?
  some (if directives.isEmpty then ofLevel .error else ⟨directives⟩)

/-- The only field of an event: its text. -/
def eventField : String := "message"

/-- How closely a directive describes the events that it concerns. -/
structure Closeness where
  /-- The length of the target and one more, or 0 if there is none. -/
  target : Nat
  fields : Nat
deriving DecidableEq, Repr

/-- Whether one directive is at most as close as another: a longer target decides, then a field. -/
def Closeness.isAtMost (x y : Closeness) : Bool :=
  x.target < y.target || (x.target = y.target && x.fields ≤ y.fields)

/-- The closeness of a directive that concerns an origin, and its threshold. -/
def weigh (origin : Origin) : Directive → Option (Closeness × Threshold)
  | .events target field t =>
    if target.all (fun x => x.toList.isPrefixOf origin.path.toList) && field.all (· = eventField) then
      some (⟨target.elim 0 (·.length + 1), if field.isSome then 1 else 0⟩, t)
    else none
  | .spans => none

/-- The later of two directives decides, unless the other is closer. -/
def prefer (best : Option (Closeness × Threshold)) (x : Closeness × Threshold) :
    Option (Closeness × Threshold) :=
  match best with
  | some b => if b.1.isAtMost x.1 then some x else some b
  | none => some x

def allows (f : LogFilter) (e : LogEvent) : Bool :=
  match (f.directives.filterMap (weigh e.origin)).foldl prefer none with
  | some x => x.2.allows e.level
  | none => false

/-- The filter of a text, or if that cannot be read the one for a level. -/
def choose (text : Option String) (level : Level) : LogFilter :=
  (text.bind read?).getD (ofLevel level)

end LogFilter

end Backplane.Zone
