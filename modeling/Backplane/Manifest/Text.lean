import Backplane.Manifest.Basic
import Backplane.Toml.Document
import Backplane.Toml.Field
import Backplane.Toml.Written
/-!
# `Backplane.Manifest.Text`: manifests as text

A manifest is written as one `[[modules]]` table for each declaration, with what is empty left out,
and is read from any document whose `modules` are records of a name, a unit and a list of
dependencies.

`Manifest.parse` models `parse` of `ModulesConfig`, a `Source` a `ConfigSource`.
-/
namespace Backplane

open Toml

def Declaration.ofValue? (v : Value) : Option Declaration := do
  match ← fields? ["name", "unit", "depends_on"] v with
  | [name, unit, dependsOn] =>
    some {
      name := ← required text? name
      unit := ← optionalField text? unit
      dependsOn := ← withDefault [] (list? text?) dependsOn }
  | _ => none

def Manifest.parse (text : String) : Except PlanError Manifest :=
  let modules := (Toml.read? text).bind fun es =>
    withDefault [] (list? Declaration.ofValue?) (es.get? "modules")
  match modules with
  | some ms => .ok ⟨ms⟩
  | none => .error .malformed

def fieldLine (name value : String) : String := name ++ " = " ++ value ++ "\n"

def Declaration.render (d : Declaration) : String :=
  "[[modules]]\n" ++ fieldLine "name" (writeString d.name)
    ++ d.unit.elim "" (fun u => fieldLine "unit" (writeString u))
    ++ (if d.dependsOn.isEmpty then ""
      else fieldLine "depends_on" ("[" ++ String.intercalate ", " (d.dependsOn.map writeString) ++ "]"))

def Manifest.render (m : Manifest) : String :=
  if m.modules.isEmpty then "modules = []\n"
  else String.intercalate "\n" (m.modules.map Declaration.render)

/-- Where a manifest comes from. -/
inductive Source
  | inline (text : String)
  /-- A file, and what reading it yields. -/
  | file (path : String) (content : Except FileFault ByteArray)

def Source.label : Source → String
  | inline _ => "<inline>"
  | file path _ => path

def Source.read : Source → Except PlanError Manifest
  | inline text => Manifest.parse text
  | file path content =>
    match content.bind textOf with
    | .ok text => Manifest.parse text
    | .error fault => .error (.unreadable path fault)

def Source.inFolder (f : Folder) (path : String) : Source := .file path (f.read path)

end Backplane
