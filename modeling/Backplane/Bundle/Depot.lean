import Backplane.Bundle.Blueprint
import Backplane.Bundle.Reference
import Backplane.Manifest.Basic
import Backplane.Text.Quoted
/-!
# `Backplane.Bundle.Depot`: units by reference

A unit is a bundle that a manifest can refer to.  The built-in one is always there; any other is in
a library, which is opened when a reference to it is first resolved.  How a library is opened is not
settled here: whatever opens them may make of a path what it likes.  Units that were opened are kept
by the text of the reference, and numbered in the order of opening.

A `Depot` models the `UnitResolver`, `Depot.resolve` its `resolve` and the opener its `open`; the
units that are kept are `ResolvedUnit`s.
-/
namespace Backplane

/-- What there is to open: what lies where, and which of the files are libraries. -/
structure Shelf where
  folder : Folder := {}
  libraries : List (List String × Except LibraryFault Bundle) := []

namespace Shelf

/-- A way to open a library that knows nothing but the shelf: it opens what stands there at a path,
and where else to search for a path without a slash it does not know. -/
def load (s : Shelf) (path : String) : Except LibraryFault Bundle :=
  match s.folder.look path with
  | .error _ => .error .unusable
  | .ok place =>
    if !path.toList.contains '/' then .error (.absent path)
    else
      match place with
      | .vacant _ => .error (.absent path)
      | .nowhere => .error (.absent path)
      | .folder => .error .unusable
      | .blocked => .error .unusable
      | .file name _ => (Keyed.get? s.libraries name).getD (.error .unusable)

end Shelf

/-- A unit that a reference led to. -/
structure ResolvedUnit where
  reference : String
  /-- Which unit it is: 0 for the built-in one, others in the order of opening. -/
  serial : Nat
  bundle : Bundle

namespace ResolvedUnit

/-- Whether the unit came from a library. -/
def isDynamic (u : ResolvedUnit) : Bool := u.serial ≠ 0

def blueprint (u : ResolvedUnit) (module : String) : Except PlanError Blueprint :=
  match u.bundle.find? module with
  | some p => .ok p
  | none => .error (.notInUnit u.reference module)

def describe (u : ResolvedUnit) : String :=
  withFields "ResolvedUnit"
    [("reference", quoted u.reference), ("dynamic", toString u.isDynamic)]

end ResolvedUnit

/-- Where units come from. -/
structure Depot where
  builtin : Bundle
  shelf : Shelf := {}
  /-- How the library at a path is opened, the shelf being what it is. -/
  opener : Shelf → String → Except LibraryFault Bundle := Shelf.load
  folder : Option String := none
  opened : List (String × ResolvedUnit) := []

/-- What resolving a reference found. -/
inductive Finding
  | known (unit : ResolvedUnit)
  | opened (unit : ResolvedUnit) (path : String)
  | failed (fault : LibraryFault) (path : String)

namespace Depot

def withFile (d : Depot) (path : String) (content : ByteArray) : Depot :=
  { d with shelf := { d.shelf with folder := d.shelf.folder.put (Folder.nameOf path) content } }

/-- Opens the library at a path. -/
def load (d : Depot) (path : String) : Except LibraryFault Bundle := d.opener d.shelf path

def builtinName : String := "builtin"

def builtinUnit (d : Depot) : ResolvedUnit := ⟨builtinName, 0, d.builtin⟩

/-- Looks a reference up; opens its library if that has not been done. -/
def find (d : Depot) (reference : Option String) : Finding :=
  match reference with
  | none => .known d.builtinUnit
  | some r =>
    if r = builtinName then .known d.builtinUnit
    else
      match Keyed.get? d.opened r with
      | some u => .known u
      | none =>
        let path := Reference.locate d.folder r
        match d.load path with
        | .ok b => .opened ⟨r, d.opened.length + 1, b⟩ path
        | .error fault => .failed fault path

def resolve (d : Depot) (reference : Option String) : Except PlanError ResolvedUnit × Depot :=
  match d.find reference with
  | .known u => (.ok u, d)
  | .opened u _ => (.ok u, { d with opened := d.opened ++ [(u.reference, u)] })
  | .failed fault _ => (.error (.unitNotFound (reference.getD builtinName) fault), d)

def describe (d : Depot) : String :=
  withFields "UnitResolver"
    [("unit_directory", optional (d.folder.map quoted)), ("loaded", toString d.opened.length)]

end Depot

end Backplane
