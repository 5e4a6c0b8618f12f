import Backplane.Text.Hex
/-!
# `Backplane.Toml.Written`: how strings are written

A string is written in the plainest of the four forms that shows it without escapes, tried in the
order quotes, apostrophes, three quotes, three apostrophes.  Where none does, escapes are used, on
several lines if the string has any.

So are the strings of a `ModulesConfig`.
-/
namespace Backplane.Toml

/-- The greatest number of times in a row that a character occurs; `run` times before the text. -/
def longestRun (q : Char) : Nat → List Char → Nat
  | run, [] => run
  | run, c :: r => if c = q then longestRun q (run + 1) r else max run (longestRun q 0 r)

/-- Control characters, which no form shows; tabs and line ends are none. -/
def isControl (c : Char) : Bool :=
  (c.toNat < 0x20 && c ≠ '\t' && c ≠ '\n') || c.toNat = 0x7F

/-- The ways to write a string. -/
inductive Form
  | basic
  | literal
  | linesBasic
  | linesLiteral
deriving DecidableEq, Repr

/-- The form in which a string is written. -/
def formOf (s : List Char) : Form :=
  let control := s.any isControl
  let escape := s.contains '\\'
  let newline := s.contains '\n'
  if !control && !escape && !newline && longestRun '"' 0 s = 0 then .basic
  else if !control && !newline && longestRun '\'' 0 s = 0 then .literal
  else if !control && !escape && longestRun '"' 0 s ≤ 2 then .linesBasic
  else if !control && longestRun '\'' 0 s ≤ 2 then .linesLiteral
  else if newline then .linesBasic
  else .basic

/-- A control character by its code point. -/
def codeEscape (c : Char) : List Char :=
  '\\' :: 'u' :: [c.toNat / 4096 % 16, c.toNat / 256 % 16, c.toNat / 16 % 16, c.toNat % 16].map Hex.upperDigit

/-- A character between quotes, if it is no quote. -/
def escapedChar (lines : Bool) (c : Char) : List Char :=
  if c = '\x08' then ['\\', 'b']
  else if c = '\t' then ['\\', 't']
  else if c = '\n' then (if lines then ['\n'] else ['\\', 'n'])
  else if c = '\x0c' then ['\\', 'f']
  else if c = '\r' then ['\\', 'r']
  else if c = '\\' then ['\\', '\\']
  else if isControl c then codeEscape c
  else [c]

/-- A string between quotes.  On several lines two quotes in a row may stand, and the third is
escaped; on one line each is.  `run` quotes came before. -/
def escaped (lines : Bool) : Nat → List Char → List Char
  | _, [] => []
  | run, c :: r =>
    if c = '"' then
      (if lines && run < 2 then '"' :: escaped lines (run + 1) r else '\\' :: '"' :: escaped lines 0 r)
    else escapedChar lines c ++ escaped lines 0 r

/-- The line end after the opening of a string that has line ends. -/
def opening (s : List Char) : List Char := if s.contains '\n' then ['\n'] else []

def writeString (text : String) : String :=
  let s := text.toList
  String.ofList <|
    match formOf s with
    | .basic => '"' :: escaped false 0 s ++ ['"']
    | .literal => '\'' :: s ++ ['\'']
    | .linesBasic => "\"\"\"".toList ++ opening s ++ escaped true 0 s ++ "\"\"\"".toList
    | .linesLiteral => "'''".toList ++ opening s ++ s ++ "'''".toList

end Backplane.Toml
