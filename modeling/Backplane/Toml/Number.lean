import Backplane.Toml.Value
import Backplane.Text.Hex
/-!
# `Backplane.Toml.Number`: numbers, dates and times

These values have no delimiters: each is a word, a maximal run of letters, digits and the marks `+ -
. : _`, and is recognised as a whole.  A date may be followed by a space and a time of day.

An `AppConfig` has whole numbers only.
-/
namespace Backplane.Toml

/-- The characters of a word. -/
def isWordChar (c : Char) : Bool :=
  c.isAlphanum || c = '+' || c = '-' || c = '.' || c = ':' || c = '_'

/-! ## Digits -/

/-- Digits with single underscores between them; yields the digits alone. -/
def grouped? (isDigit : Char → Bool) : List Char → Option (List Char)
  | [] => none
  | [c] => if isDigit c then some [c] else none
  | c :: '_' :: r => if isDigit c then (grouped? isDigit r).map (c :: ·) else none
  | c :: r => if isDigit c then (grouped? isDigit r).map (c :: ·) else none

/-- Splits off a sign: whether it was a minus, and the rest. -/
def splitSign : List Char → Bool × List Char
  | '+' :: r => (false, r)
  | '-' :: r => (true, r)
  | r => (false, r)

/-- The decimal digits of a whole number: no zero before others. -/
def wholeDigits? (s : List Char) : Option (List Char) :=
  match s with
  | ['0'] => some ['0']
  | '0' :: _ => none
  | _ => grouped? Char.isDigit s

/-- The number that decimal digits spell. -/
def decimal (digits : List Char) : Nat := digits.foldl (fun n c => 10 * n + (c.toNat - 48)) 0

/-- The number that digits of a base spell. -/
def inBase? (base : Nat) (s : List Char) : Option Nat := do
  let digits ← grouped? (fun c => (Hex.value? c).any (· < base)) s
  some (digits.foldl (fun n c => base * n + (Hex.value? c).getD 0) 0)

/-- Whether a number fits into 64 bits with sign. -/
def fitsInteger (n : Int) : Bool := -9223372036854775808 ≤ n && n ≤ 9223372036854775807

/-- An integer: decimal with a sign, or hexadecimal, octal or binary without one. -/
def integer? (w : List Char) : Option Int := do
  let n ← match w with
    | '0' :: 'x' :: r => (inBase? 16 r).map Int.ofNat
    | '0' :: 'o' :: r => (inBase? 8 r).map Int.ofNat
    | '0' :: 'b' :: r => (inBase? 2 r).map Int.ofNat
    | _ =>
      let (minus, r) := splitSign w
      (wholeDigits? r).map fun ds => if minus then -(decimal ds : Int) else decimal ds
  if fitsInteger n then some n else none

/-! ## Numbers with a fraction or an exponent -/

/-- The first number that rounds to infinity: the midpoint above the greatest finite one. -/
def infinityBound : Nat := Nat.pow 2 1024 - Nat.pow 2 970

/-- Whether `digits · 10 ^ exponent` rounds to a finite number. -/
def isFinite (digits : List Char) (exponent : Int) : Bool :=
  let significant := digits.dropWhile (· = '0')
  let magnitude : Int := significant.length + exponent
  if significant.isEmpty || magnitude < 300 then true
  else if 320 < magnitude then false
  else if 0 ≤ exponent then decimal significant * Nat.pow 10 exponent.toNat < infinityBound
  else decimal significant < infinityBound * Nat.pow 10 (-exponent).toNat

/-- An exponent after its letter: a sign and digits. -/
def exponent? (s : List Char) : Option Int :=
  let (minus, r) := splitSign s
  (grouped? Char.isDigit r).map fun ds => if minus then -(decimal ds : Int) else decimal ds

/-- Splits at the letter of an exponent. -/
def splitExponent (s : List Char) : List Char × Option (List Char) :=
  match s.span fun c => c ≠ 'e' && c ≠ 'E' with
  | (front, []) => (front, none)
  | (front, _ :: r) => (front, some r)

/-- Splits at the point. -/
def splitPoint (s : List Char) : List Char × Option (List Char) :=
  match s.span (· ≠ '.') with
  | (front, []) => (front, none)
  | (front, _ :: r) => (front, some r)

/-- Whether a word is a number with a fraction or an exponent, or one of the words for infinity and
for no number.  A positive number has to be finite. -/
def isFraction (w : List Char) : Bool :=
  let (minus, r) := splitSign w
  if r = "inf".toList || r = "nan".toList then true
  else
    let (mantissa, power) := splitExponent r
    let (whole, part) := splitPoint mantissa
    match wholeDigits? whole, part.map (grouped? Char.isDigit), power.map exponent? with
    | some _, none, none => false
    | some ds, none, some (some e) => minus || isFinite ds e
    | some ds, some (some fs), none => minus || isFinite (ds ++ fs) (-fs.length)
    | some ds, some (some fs), some (some e) => minus || isFinite (ds ++ fs) (e - fs.length)
    | _, _, _ => false

/-! ## Dates and times -/

def twoDigits? (a b : Char) : Option Nat := if a.isDigit && b.isDigit then some (decimal [a, b]) else none

/-- The number of days of a month. -/
def monthLength (year month : Nat) : Nat :=
  if month = 2 then
    (if year % 4 = 0 && (year % 100 ≠ 0 || year % 400 = 0) then 29 else 28)
  else if month = 4 || month = 6 || month = 9 || month = 11 then 30
  else 31

/-- Reads a date, `yyyy-mm-dd`. -/
def date? : List Char → Option (List Char)
  | a :: b :: c :: d :: '-' :: e :: f :: '-' :: g :: h :: r => do
    let century ← twoDigits? a b
    let year ← twoDigits? c d
    let month ← twoDigits? e f
    let day ← twoDigits? g h
    if 1 ≤ month && month ≤ 12 && 1 ≤ day && day ≤ monthLength (100 * century + year) month then some r
    else none
  | _ => none

def secondFraction? : List Char → Option (List Char)
  | '.' :: c :: r => if c.isDigit then some (r.dropWhile Char.isDigit) else none
  | '.' :: [] => none
  | r => some r

/-- Reads a time of day, `hh:mm:ss` and perhaps a fraction of a second. -/
def timeOfDay? : List Char → Option (List Char)
  | a :: b :: ':' :: c :: d :: ':' :: e :: f :: r => do
    let hour ← twoDigits? a b
    let minute ← twoDigits? c d
    let second ← twoDigits? e f
    if hour ≤ 23 && minute ≤ 59 && second ≤ 60 then secondFraction? r else none
  | _ => none

def isOffset : List Char → Bool
  | [] => true
  | ['Z'] => true
  | ['z'] => true
  | [s, a, b, ':', c, d] =>
    (s = '+' || s = '-') && (twoDigits? a b).any (· ≤ 23) && (twoDigits? c d).any (· ≤ 59)
  | _ => false

/-- Whether a text is a time of day with an offset or without. -/
def isTimeWithOffset (s : List Char) : Bool := (timeOfDay? s).any isOffset

/-- Whether a word is a date, a time of day, or both joined by a `T`. -/
def isMoment (w : List Char) : Bool :=
  match date? w with
  | some [] => true
  | some (c :: r) => (c = 'T' || c = 't') && isTimeWithOffset r
  | none => timeOfDay? w = some []

/-! ## Words -/

def word? (w : List Char) : Option Value :=
  if w = "true".toList then some (.boolean true)
  else if w = "false".toList then some (.boolean false)
  else if isMoment w then some .moment
  else if isFraction w then some .fraction
  else (integer? w).map .integer

/-- A word, or a date and a time with a space between them. -/
def scalarWord? (s : List Char) : Option (Value × List Char) :=
  let (w, r) := s.span isWordChar
  match date? w, r with
  | some [], ' ' :: c :: r' =>
    if isWordChar c then
      let (t, rest) := (c :: r').span isWordChar
      if isTimeWithOffset t then some (.moment, rest) else none
    else some (.moment, r)
  | _, _ => (word? w).map fun v => (v, r)

end Backplane.Toml
