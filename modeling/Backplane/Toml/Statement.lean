import Backplane.Toml.Number
import Backplane.Toml.Quote
/-!
# `Backplane.Toml.Statement`: keys, values and the lines of a document

A document is a sequence of statements: headers that open a table, headers that append a table to a
list, and entries.  Lists and inline tables nest at most 79 deep, and a key has at most 79 parts.

A `ModulesConfig` is written as statements, and so is an `AppConfig`.
-/
namespace Backplane.Toml

/-- How deep values may nest, and how many parts a key may have. -/
def depthLimit : Nat := 79

/-! ## Keys -/

/-- One part of a key: quoted, or bare. -/
def keyPart? : Reader String
  | '"' :: r => (basicBody r).map fun x => (String.ofList x.1, x.2)
  | '\'' :: r => (literalBody r).map fun x => (String.ofList x.1, x.2)
  | s =>
    match s.span isBareChar with
    | ([], _) => none
    | (k, r) => some (String.ofList k, r)

/-- The parts of a key, with dots between them and blanks around them. -/
def keyParts? (s : List Char) : Option (List String × List Char) :=
  match keyPart? (skipBlanks s) with
  | none => none
  | some (k, r) =>
    match skipBlanks r with
    | '.' :: r' =>
      if r'.length < s.length then (keyParts? r').map fun x => (k :: x.1, x.2) else none
    | r' => some ([k], r')
termination_by s.length

/-- A key of at most `depthLimit` parts. -/
def key? (s : List Char) : Option (List String × List Char) :=
  (keyParts? s).filter fun x => x.1.length ≤ depthLimit

/-! ## Adding an entry to a table -/

/-- Adds an entry under a dotted key.  The tables on the way are made if they are missing; of those
that are there only tables made by dotted keys can take the entry itself, and none with a header or
braces of its own can be passed.  `takes` says whether the table at hand can take it. -/
def insertAt (v : Value) : Bool → List String → Entries → Option Entries
  | _, [], _ => none
  | takes, [k], es => if takes && (es.get? k).isNone then some (es ++ [(k, v)]) else none
  | _, k :: k' :: ks, es =>
    match es.get? k with
    | none => (insertAt v true (k' :: ks) []).map fun t => es ++ [(k, .table .dotted t)]
    | some (.table .dotted t) =>
      (insertAt v true (k' :: ks) t).map fun t' => es.replace k (.table .dotted t')
    | some (.table .passed t) =>
      (insertAt v false (k' :: ks) t).map fun t' => es.replace k (.table .passed t')
    | some (.list true items) =>
      match items.getLast? with
      | some (.table o t) =>
        (insertAt v false (k' :: ks) t).map fun t' =>
          es.replace k (.list true (items.dropLast ++ [.table o t']))
      | _ => none
    | some _ => none

/-- The table of the entries between braces. -/
def inlineTable? (pairs : List (List String × Value)) : Option Value :=
  (pairs.foldlM (fun es p => insertAt p.2 true p.1 es) []).map (.table .inline)

/-! ## Values -/

/-- The items of a list after its bracket. -/
def items? (item : Reader Value) (s : List Char) : Option (List Value × List Char) :=
  match skipLines s with
  | none => none
  | some (']' :: r) => some ([], r)
  | some s' =>
    match item s' with
    | none => none
    | some (v, r) =>
      match skipLines r with
      | some (',' :: r') =>
        if r'.length < s.length then (items? item r').map fun x => (v :: x.1, x.2) else none
      | some (']' :: r') => some ([v], r')
      | _ => none
termination_by s.length

/-- A key, an equals sign and a value, with blanks around them. -/
def pair? (item : Reader Value) (s : List Char) : Option ((List String × Value) × List Char) :=
  match key? s with
  | some (k, '=' :: r) => (item (skipBlanks r)).map fun x => ((k, x.1), skipBlanks x.2)
  | _ => none

/-- The entries of an inline table, of which there is at least one. -/
def pairs? (item : Reader Value) (s : List Char) : Option (List (List String × Value) × List Char) :=
  match pair? item s with
  | some (p, ',' :: r) =>
    if r.length < s.length then (pairs? item r).map fun x => (p :: x.1, x.2) else none
  | some (p, '\x7d' :: r) => some ([p], r)
  | _ => none
termination_by s.length

/-- The entries of an inline table after its brace. -/
def inlineBody? (item : Reader Value) (s : List Char) : Option (Value × List Char) :=
  match skipBlanks s with
  | '\x7d' :: r => some (.table .inline [], r)
  | s' => (pairs? item s').bind fun x => (inlineTable? x.1).map fun t => (t, x.2)

/-- Whether a text begins like a string. -/
def startsString : List Char → Bool
  | c :: _ => c = '"' || c = '\''
  | [] => false

/-- A value whose lists and tables nest at most to the given depth. -/
def value? : Nat → Reader Value
  | 0, s =>
    if startsString s then (string? s).map fun x => (.text (String.ofList x.1), x.2) else scalarWord? s
  | depth + 1, s =>
    match s with
    | '[' :: r => (items? (value? depth) r).map fun x => (.list false x.1, x.2)
    | '\x7b' :: r => inlineBody? (value? depth) r
    | _ =>
      if startsString s then (string? s).map fun x => (.text (String.ofList x.1), x.2) else scalarWord? s

/-! ## Statements -/

inductive Statement
  | header (path : List String)
  | append (path : List String)
  | entry (path : List String) (value : Value)
deriving Repr

/-- The rest of a header line: the key, `close`, and the end of the line. -/
def headerLine? (close : List Char) (s : List Char) : Option (List String × List Char) :=
  match key? s with
  | none => none
  | some (path, r) =>
    if close.isPrefixOf r then (lineEnd? (r.drop close.length)).map fun r' => (path, r') else none

def entryLine? (s : List Char) : Option (Statement × List Char) :=
  match key? s with
  | some (path, '=' :: r) =>
    match value? depthLimit (skipBlanks r) with
    | some (v, r') => (lineEnd? r').map fun rest => (.entry path v, rest)
    | none => none
  | _ => none

def statement? : Reader Statement
  | '[' :: '[' :: r => (headerLine? [']', ']'] r).map fun x => (.append x.1, x.2)
  | '[' :: r => (headerLine? [']'] r).map fun x => (.header x.1, x.2)
  | s => entryLine? s

/-- The rest after a line without a statement, if the text begins with one. -/
def emptyLine? (s : List Char) : Option (List Char) :=
  match s with
  | '#' :: _ => lineEnd? s
  | '\n' :: r => some r
  | '\r' :: r => newline? ('\r' :: r)
  | _ => none

/-- Whether a text begins with a line without a statement. -/
def startsEmptyLine : List Char → Bool
  | c :: _ => c = '#' || c = '\n' || c = '\r'
  | [] => false

def statements? (s : List Char) : Option (List Statement) :=
  let t := skipBlanks s
  if t = [] then some []
  else if startsEmptyLine t then
    match emptyLine? t with
    | some r => if r.length < s.length then statements? r else none
    | none => none
  else
    match statement? t with
    | some (x, r) => if r.length < s.length then (statements? r).map (x :: ·) else none
    | none => none
termination_by s.length

end Backplane.Toml
