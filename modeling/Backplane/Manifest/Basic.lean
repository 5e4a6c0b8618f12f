import Backplane.Text.Blank
import Backplane.Folder
/-!
# `Backplane.Manifest.Basic`: lists of modules to load

A declaration names a module, the unit that provides it, and the modules it needs; a manifest is a
list of declarations.

A `Declaration` models a `ModuleDeclaration`, with `validate_declaration`; a `Manifest` models a
`ModulesConfig`, a `PlanError` a `CatalogError`.
-/
namespace Backplane

structure Declaration where
  name : String
  /-- The unit that provides the module; the built-in one if there is none. -/
  unit : Option String := none
  dependsOn : List String := []
deriving DecidableEq, Repr

structure Manifest where
  modules : List Declaration := []
deriving DecidableEq, Repr

inductive DeclarationFault
  | blankName
  | blankUnit (module : String)
  | blankDependency (module : String)
deriving DecidableEq, Repr

def DeclarationFault.message : DeclarationFault → String
  | blankName => "module name cannot be empty"
  | blankUnit m => "module " ++ m ++ " has an empty unit reference"
  | blankDependency m => "module " ++ m ++ " has an empty dependency name"

/-- The first fault of a declaration: a blank name, a blank unit, or a blank dependency. -/
def Declaration.fault? (d : Declaration) : Option DeclarationFault :=
  if isBlank d.name then some .blankName
  else if d.unit.any isBlank then some (.blankUnit d.name)
  else if d.dependsOn.any isBlank then some (.blankDependency d.name)
  else none

inductive LibraryFault
  | absent (path : String)
  /-- What is there is no library. -/
  | unusable
  /-- The library has no entry point. -/
  | noEntry
  /-- The entry point makes no unit. -/
  | nullUnit
deriving DecidableEq, Repr

def LibraryFault.message : LibraryFault → String
  | absent path =>
    "failed to load library: " ++ path ++ ": cannot open shared object file: No such file or directory"
  | unusable => "failed to load library"
  | noEntry => "missing create_module_unit"
  | nullUnit => "create_module_unit returned null"

inductive PlanError
  | unreadable (path : String) (fault : FileFault)
  /-- The text is no manifest. -/
  | malformed
  | invalid (fault : DeclarationFault)
  | declaredTwice (module : String)
  | alreadyLoaded (module : String)
  | unitNotFound (unit : String) (fault : LibraryFault)
  | notInUnit (unit module : String)
  | missingDependency (module dependency : String)
  | cycle (modules : List String)
deriving DecidableEq, Repr

def PlanError.message : PlanError → String
  | unreadable path fault =>
    "failed to read module configuration " ++ path ++ ": " ++ fault.message
  | malformed => "invalid module configuration: "
  | invalid fault => "invalid module declaration: " ++ fault.message
  | declaredTwice m => "module " ++ m ++ " is declared more than once"
  | alreadyLoaded m => "module " ++ m ++ " is already loaded"
  | unitNotFound u fault => "loadable unit " ++ u ++ " cannot be located: " ++ fault.message
  | notInUnit u m => "unit " ++ u ++ " does not provide module " ++ m
  | missingDependency m d => "module " ++ m ++ " depends on " ++ d ++ ", which is not available"
  | cycle ms => "dependency cycle between modules: " ++ String.intercalate ", " ms

end Backplane
