import Backplane.Text.Alphanumeric
import Backplane.Text.Lowercase
/-!
# `Backplane.Contract.WordFilter`: masking of listed words

A text is gone through once.  While letters and numbers follow one another, only the place where
they begin is kept; where they end the word goes out, cut from the text from there, and is masked if
its lower-case form is that of a listed word.  All else goes out as it comes.

This models the `WordListFilter`, with `push_word` and `filter`.
-/
namespace Backplane

/-- A list of words, in lower case. -/
structure WordFilter where
  words : List (List Char)
deriving DecidableEq, Repr

namespace WordFilter

def ofWords (words : List String) : WordFilter := ⟨words.map fun w => lowercase w.toList⟩

/-- Whether a word is listed. -/
def lists (f : WordFilter) (cs : List Char) : Bool := f.words.contains (lowercase cs)

/-- Adds a word, with a star for each of its characters if it is listed, and says whether it is. -/
def pushWord (f : WordFilter) (out word : String) : Bool × String :=
  if f.lists word.toList then (true, out ++ String.ofList (List.replicate word.length '*'))
  else (false, out ++ word)

/-- How far a text has been gone through: what has gone out, whether any of it is masked, and where
the word begins that has not gone out yet. -/
structure Scan where
  out : String := ""
  replaced : Bool := false
  start : Option String.Pos.Raw := none
deriving DecidableEq, Repr

/-- Ends the word that has been begun, if one has been. -/
def close (f : WordFilter) (text : String) (stop : String.Pos.Raw) (s : Scan) : Scan :=
  match s.start with
  | none => s
  | some start =>
    let r := f.pushWord s.out (String.Pos.Raw.extract text start stop)
    ⟨r.2, s.replaced || r.1, none⟩

/-- Goes on by the character at some place. -/
def visit (f : WordFilter) (text : String) (s : Scan) (x : String.Pos.Raw × Char) : Scan :=
  if isAlphanumeric x.2 then
    match s.start with
    | none => { s with start := some x.1 }
    | some _ => s
  else
    let closed := f.close text x.1 s
    { closed with out := closed.out.push x.2 }

/-- Characters with their places, from a place on. -/
def places : String.Pos.Raw → List Char → List (String.Pos.Raw × Char)
  | _, [] => []
  | i, c :: rest => (i, c) :: places (i + c) rest

def scan (f : WordFilter) (text : String) : Scan :=
  f.close text text.rawEndPos ((places 0 text.toList).foldl (f.visit text) {})

/-- Filters a text: whether anything was masked, and the text afterwards. -/
def applyTo (f : WordFilter) (text : String) : Bool × String :=
  let s := f.scan text
  (s.replaced, if s.replaced then s.out else text)

end WordFilter

end Backplane
