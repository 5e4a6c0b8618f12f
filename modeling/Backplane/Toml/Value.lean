/-!
# `Backplane.Toml.Value`: the values of a TOML document

Numbers with a fraction, and dates and times, are read for their form alone: no setting has such a
value, so what they stand for is not kept.

They are what a `ModulesConfig` or an `AppConfig` is read from.
-/
namespace Backplane.Toml

/-- How a table came about, which decides what may still be added to it. -/
inductive Origin
  /-- Written as one value, and complete. -/
  | inline
  /-- Opened by a header of its own. -/
  | header
  /-- Only passed through by the header of a table inside it. -/
  | passed
  /-- Passed through by a dotted key. -/
  | dotted
deriving DecidableEq, Repr

inductive Value
  | text (s : String)
  | integer (n : Int)
  | fraction
  | boolean (b : Bool)
  | moment
  /-- A list; `grows` if it consists of tables that headers append. -/
  | list (grows : Bool) (items : List Value)
  | table (origin : Origin) (entries : List (String × Value))
deriving Repr

/-- The entries of a table, in the order in which they were written. -/
abbrev Entries := List (String × Value)

namespace Entries

def get? (es : Entries) (k : String) : Option Value := (es.find? fun e => e.1 = k).map (·.2)

def replace (es : Entries) (k : String) (v : Value) : Entries :=
  es.map fun e => if e.1 = k then (k, v) else e

end Entries

end Backplane.Toml
