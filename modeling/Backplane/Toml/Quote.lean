import Backplane.Text.Hex
import Backplane.Toml.Lexeme
/-!
# `Backplane.Toml.Quote`: the four kinds of strings

Between double quotes a backslash begins an escape; between apostrophes every character stands for
itself.  Three quotes or apostrophes open a string of several lines; up to two more of them may
stand directly before the three that close it.

All strings of a `ModulesConfig` or an `AppConfig` are written in one of them.
-/
namespace Backplane.Toml

/-- The character of a one-letter escape. -/
def shortEscape? (c : Char) : Option Char :=
  if c = 'b' then some '\x08'
  else if c = 't' then some '\t'
  else if c = 'n' then some '\n'
  else if c = 'f' then some '\x0c'
  else if c = 'r' then some '\r'
  else if c = '"' then some '"'
  else if c = '\\' then some '\\'
  else none

/-- The character of a code point given in hexadecimal digits. -/
def scalar? (digits : List Char) : Option Char :=
  (Hex.read? digits).bind fun n => if n.isValidChar then some (Char.ofNat n) else none

/-- Puts a character before what a reader read. -/
def consRead (c : Char) (r : Option (List Char × List Char)) : Option (List Char × List Char) :=
  r.map fun x => (c :: x.1, x.2)

/-- The rest of a string in double quotes, after the first of them. -/
def basicBody : Reader (List Char)
  | [] => none
  | '\\' :: 'u' :: a :: b :: c :: d :: r => (scalar? [a, b, c, d]).bind fun x => consRead x (basicBody r)
  | '\\' :: 'U' :: a :: b :: c :: d :: e :: f :: g :: h :: r =>
    (scalar? [a, b, c, d, e, f, g, h]).bind fun x => consRead x (basicBody r)
  | '\\' :: c :: r => (shortEscape? c).bind fun x => consRead x (basicBody r)
  | c :: r =>
    if c = '"' then some ([], r)
    else if isBasicChar c then consRead c (basicBody r)
    else none

/-- The rest of a string in apostrophes, after the first of them. -/
def literalBody : Reader (List Char)
  | [] => none
  | c :: r =>
    if c = '\'' then some ([], r)
    else if isLiteralChar c then consRead c (literalBody r)
    else none

/-- What surrounds a place in a string of several lines. -/
inductive Margin
  | text
  /-- A backslash came before, and blanks: the line has to end. -/
  | breaking
  /-- A line ended after a backslash: blanks and line ends are dropped. -/
  | broken
deriving DecidableEq, Repr

/-- The rest of a string in three double quotes, after the first line end. -/
def linesBasicBody : Margin → Reader (List Char)
  | _, [] => none
  | .breaking, '\r' :: '\n' :: r => linesBasicBody .broken r
  | .breaking, c :: r =>
    if c = '\n' then linesBasicBody .broken r
    else if isBlankChar c then linesBasicBody .breaking r
    else none
  | m, '\r' :: '\n' :: r =>
    if m = .broken then linesBasicBody .broken r else consRead '\n' (linesBasicBody .text r)
  | _, '"' :: '"' :: '"' :: '"' :: '"' :: r => some (['"', '"'], r)
  | _, '"' :: '"' :: '"' :: '"' :: r => some (['"'], r)
  | _, '"' :: '"' :: '"' :: r => some ([], r)
  | _, '\\' :: 'u' :: a :: b :: c :: d :: r =>
    (scalar? [a, b, c, d]).bind fun x => consRead x (linesBasicBody .text r)
  | _, '\\' :: 'U' :: a :: b :: c :: d :: e :: f :: g :: h :: r =>
    (scalar? [a, b, c, d, e, f, g, h]).bind fun x => consRead x (linesBasicBody .text r)
  | _, '\\' :: '\r' :: '\n' :: r => linesBasicBody .broken r
  | _, '\\' :: c :: r =>
    if c = '\n' then linesBasicBody .broken r
    else if isBlankChar c then linesBasicBody .breaking r
    else (shortEscape? c).bind fun x => consRead x (linesBasicBody .text r)
  | m, c :: r =>
    if m = .broken && (c = '\n' || isBlankChar c) then linesBasicBody .broken r
    else if c = '\n' || c = '"' || isBasicChar c then consRead c (linesBasicBody .text r)
    else none

/-- The rest of a string in three apostrophes, after the first line end. -/
def linesLiteralBody : Reader (List Char)
  | [] => none
  | '\r' :: '\n' :: r => consRead '\n' (linesLiteralBody r)
  | '\'' :: '\'' :: '\'' :: '\'' :: '\'' :: r => some (['\'', '\''], r)
  | '\'' :: '\'' :: '\'' :: '\'' :: r => some (['\''], r)
  | '\'' :: '\'' :: '\'' :: r => some ([], r)
  | c :: r =>
    if c = '\n' || c = '\'' || isLiteralChar c then consRead c (linesLiteralBody r) else none

/-- The rest after a line end, if there is one. -/
def dropNewline (s : List Char) : List Char := (newline? s).getD s

def string? : Reader (List Char)
  | '"' :: '"' :: '"' :: r => linesBasicBody .text (dropNewline r)
  | '"' :: r => basicBody r
  | '\'' :: '\'' :: '\'' :: r => linesLiteralBody (dropNewline r)
  | '\'' :: r => literalBody r
  | _ => none

end Backplane.Toml
