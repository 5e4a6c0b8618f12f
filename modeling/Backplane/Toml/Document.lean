import Backplane.Toml.Statement
/-!
# `Backplane.Toml.Document`: the table that statements build

Statements are carried out in order on the table of the whole document.  A header opens a table that
is missing or was only passed through by other headers; an entry goes into the table opened last.

A `ModulesConfig` or an `AppConfig` is read from this table.
-/
namespace Backplane.Toml

/-- Changes the entries of the table that a header path leads to.  Missing tables on the way are
made; a list of tables stands for its last table. -/
def within (f : Entries → Option Entries) : List String → Entries → Option Entries
  | [], es => f es
  | k :: ks, es =>
    match es.get? k with
    | none => (within f ks []).map fun t => es ++ [(k, .table .passed t)]
    | some (.table .inline _) => none
    | some (.table o t) => (within f ks t).map fun t' => es.replace k (.table o t')
    | some (.list true items) =>
      match items.getLast? with
      | some (.table o t) =>
        (within f ks t).map fun t' => es.replace k (.list true (items.dropLast ++ [.table o t']))
      | _ => none
    | some _ => none

def openTable (k : String) (es : Entries) : Option Entries :=
  match es.get? k with
  | none => some (es ++ [(k, .table .header [])])
  | some (.table .passed t) => some (es.replace k (.table .header t))
  | some _ => none

def appendTable (k : String) (es : Entries) : Option Entries :=
  match es.get? k with
  | none => some (es ++ [(k, .list true [.table .header []])])
  | some (.list true items) => some (es.replace k (.list true (items ++ [.table .header []])))
  | some _ => none

/-- A document under construction: all entries, and the path of the table opened last. -/
structure Draft where
  root : Entries := []
  path : List String := []

/-- Carries out a change to the last key of a header path. -/
def Draft.atHeader (d : Draft) (path : List String) (f : String → Entries → Option Entries) :
    Option Draft :=
  match path.getLast? with
  | none => none
  | some k => (within (f k) path.dropLast d.root).map fun root => ⟨root, path⟩

def Draft.apply (d : Draft) : Statement → Option Draft
  | .header path => d.atHeader path openTable
  | .append path => d.atHeader path appendTable
  | .entry path v => (within (insertAt v true path) d.path d.root).map fun root => { d with root }

/-- A text without the byte order mark that may precede it. -/
def dropMark : List Char → List Char
  | '\ufeff' :: r => r
  | s => s

def read? (text : String) : Option Entries := do
  let statements ← statements? (dropMark text.toList)
  let draft ← statements.foldlM Draft.apply {}
  some draft.root

end Backplane.Toml
