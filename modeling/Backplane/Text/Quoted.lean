import Backplane.Text.Hex
import Backplane.Text.Printable
/-!
# `Backplane.Text.Quoted`: texts shown in quotes

A quoted text can be told apart from its surroundings: quotes and backslashes are preceded by a
backslash, line ends, tabs and the null character have short names, and every character without a
picture of its own is shown as its code point.  An apostrophe is shown as it is.

A `CapabilityId`, a `ModuleContext` and a `ResolvedUnit` are shown in this way.
-/
namespace Backplane

/-- The code point of a character in braces. -/
def codePoint (c : Char) : List Char := "\\u\x7b".toList ++ Hex.digits c.toNat ++ ['\x7d']

/-- Whether a character shows only as a part of the one before it.  The half-width sound marks
extend the character before them too, but have a picture of their own. -/
def isMark (c : Char) : Bool := graphemeExtend.has c && c ≠ '\uff9e' && c ≠ '\uff9f'

/-- A character as it stands between quotes. -/
def quotedChar (c : Char) : List Char :=
  if c = '\x00' then "\\0".toList
  else if c = '\t' then "\\t".toList
  else if c = '\r' then "\\r".toList
  else if c = '\n' then "\\n".toList
  else if c = '"' || c = '\\' then ['\\', c]
  else if isMark c || !isPrintable c then codePoint c
  else [c]

def quoted (s : String) : String := String.ofList ('"' :: s.toList.flatMap quotedChar ++ ['"'])

/-- Texts in brackets, separated by commas. -/
def bracketed (xs : List String) : String := "[" ++ String.intercalate ", " xs ++ "]"

/-- A value that may be missing. -/
def optional : Option String → String
  | some s => "Some(" ++ s ++ ")"
  | none => "None"

def withFields (name : String) (fields : List (String × String)) : String :=
  name ++ " \x7b " ++ String.intercalate ", " (fields.map fun f => f.1 ++ ": " ++ f.2) ++ " \x7d"

end Backplane
