import Backplane.Toml.Value
/-!
# `Backplane.Toml.Field`: the fields of a record

A record can be written as a table, its fields by name in any order and others among them, or as a
list, its fields in order and others after them.  A field that is missing yields nothing; one of a
wrong kind makes the record unreadable.

The records are those of a `ModulesConfig` and of an `AppConfig`.
-/
namespace Backplane.Toml

/-- The fields of the given names, in the order of the names. -/
def fields? (names : List String) : Value → Option (List (Option Value))
  | .table _ es => some (names.map (Entries.get? es))
  | .list _ items => some ((List.range names.length).map fun i => items[i]?)
  | _ => none

def text? : Value → Option String
  | .text s => some s
  | _ => none

def boolean? : Value → Option Bool
  | .boolean b => some b
  | _ => none

def natBelow? (bound : Nat) : Value → Option Nat
  | .integer n => if 0 ≤ n && n < bound then some n.toNat else none
  | _ => none

def list? {α : Type} (item : Value → Option α) : Value → Option (List α)
  | .list _ items => items.mapM item
  | _ => none

/-- A field that has to be there. -/
def required {α : Type} (read : Value → Option α) (v : Option Value) : Option α := v.bind read

/-- A field that may be missing. -/
def optionalField {α : Type} (read : Value → Option α) (v : Option Value) : Option (Option α) :=
  match v with
  | none => some none
  | some x => (read x).map some

/-- A field with a value for the case that it is missing. -/
def withDefault {α : Type} (default : α) (read : Value → Option α) (v : Option Value) : Option α :=
  match v with
  | none => some default
  | some x => read x

end Backplane.Toml
