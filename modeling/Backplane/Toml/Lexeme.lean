/-!
# `Backplane.Toml.Lexeme`: characters, blanks, comments and line ends

A reader takes a text and yields what it read and the rest, or `none` if the text does not begin
with what it looks for.  All decisions fall on the next character, so a text is never read twice.

Texts are those of a `ModulesConfig` or an `AppConfig`.
-/
namespace Backplane.Toml

abbrev Reader (α : Type) := List Char → Option (α × List Char)

def isBlankChar (c : Char) : Bool := c = ' ' || c = '\t'

/-- The characters allowed in a comment: all but the controls, tabs excepted. -/
def isCommentChar (c : Char) : Bool := c = '\t' || (0x20 ≤ c.toNat && c.toNat ≠ 0x7F)

/-- The characters that stand for themselves between double quotes. -/
def isBasicChar (c : Char) : Bool := isCommentChar c && c ≠ '"' && c ≠ '\\'

/-- The characters allowed between apostrophes. -/
def isLiteralChar (c : Char) : Bool := isCommentChar c && c ≠ '\''

def isBareChar (c : Char) : Bool := c.isAlphanum || c = '_' || c = '-'

/-- The rest after spaces and tabs. -/
def skipBlanks (s : List Char) : List Char := s.dropWhile isBlankChar

/-- The rest after a line end. -/
def newline? : List Char → Option (List Char)
  | '\n' :: r => some r
  | '\r' :: '\n' :: r => some r
  | _ => none

/-- The rest after a comment, if there is one. -/
def skipComment : List Char → List Char
  | '#' :: r => r.dropWhile isCommentChar
  | s => s

/-- The rest after what may follow a statement: blanks, a comment, and a line end or the end. -/
def lineEnd? (s : List Char) : Option (List Char) :=
  match skipComment (skipBlanks s) with
  | [] => some []
  | r => newline? r

/-- The rest after any blanks, comments and line ends, `inComment` telling whether the text begins
inside a comment.  A comment has to end with its line. -/
def skipLinesFrom : Bool → List Char → Option (List Char)
  | inComment, '\r' :: '\n' :: r => skipLinesFrom (inComment && false) r
  | inComment, [] => if inComment then none else some []
  | inComment, c :: r =>
    if c = '\n' then skipLinesFrom false r
    else if inComment then (if isCommentChar c then skipLinesFrom true r else none)
    else if isBlankChar c then skipLinesFrom false r
    else if c = '#' then skipLinesFrom true r
    else some (c :: r)

/-- The rest after any blanks, comments and line ends. -/
def skipLines (s : List Char) : Option (List Char) := skipLinesFrom false s

end Backplane.Toml
