import Backplane.Keyed
import Backplane.Module.Behaviour
/-!
# `Backplane.Bundle.Blueprint`: modules before they are built, and bundles of them

A blueprint names a module and what it needs, and says what comes of building it.  A bundle holds
blueprints of distinct names in the order in which they were added.

A `Blueprint` models a `ModuleFactory`, with `create_guarded` in `Construction.result`; a `Bundle`
models a `StaticUnit`.
-/
namespace Backplane

/-- A module that has been built. -/
structure Instance where
  selfName : String
  version : String
  hooks : Hooks

/-- What comes of building a module. -/
inductive Construction
  | built (x : Instance)
  | failed (error : ModuleError)
  /-- Building breaks off. -/
  | panicked (reason : Option String)

def Construction.result : Construction → Except ModuleError Instance
  | built x => .ok x
  | failed e => .error e
  | panicked reason => .error (.panicked (reason.getD "unknown panic payload"))

/-- A module that can be built. -/
structure Blueprint where
  name : String
  dependencies : List String := []
  /-- Whether the journal shows what becomes of it. -/
  watched : Bool := false
  /-- What building it does before it ends. -/
  preparations : List Deed := []
  construction : Construction

structure Bundle where
  name : String
  blueprints : List Blueprint := []

namespace Bundle

/-- Adds a blueprint behind the others; it replaces one of the same name. -/
def add (b : Bundle) (p : Blueprint) : Bundle :=
  { b with blueprints := b.blueprints.filter (fun q => q.name ≠ p.name) ++ [p] }

def ofList (name : String) (ps : List Blueprint) : Bundle := ps.foldl add ⟨name, []⟩

def find? (b : Bundle) (name : String) : Option Blueprint :=
  b.blueprints.find? fun p => p.name = name

def names (b : Bundle) : List String := b.blueprints.map (·.name)

end Bundle

end Backplane
