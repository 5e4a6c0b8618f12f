import Backplane.Manifest.Basic
import Backplane.Module.Stage
import Backplane.Registry.Capability
/-!
# `Backplane.Module.Error`: how modules and lifecycle operations fail

A `LifecycleError` models a `LoaderError`.
-/
namespace Backplane

inductive ModuleError
  | initializationFailed (reason : String)
  | executionError (reason : String)
  | registry (error : RegistryError)
  | panicked (reason : String)
deriving DecidableEq, Repr

def ModuleError.message : ModuleError → String
  | initializationFailed reason => "module initialization failed: " ++ reason
  | executionError reason => "module execution error: " ++ reason
  | registry error => error.message
  | panicked reason => "module panicked: " ++ reason

inductive LifecycleError
  | config (error : PlanError)
  | load (module : String) (error : ModuleError)
  | busy (module : String) (capability : Capability) (refs : Nat)
  /-- Another operation is working on the module. -/
  | inFlight (module : String)
  | notLoaded (module : String)
  | hasDependents (module : String) (dependents : List String)
  | invalidTransition (module : String) (source target : Stage)
deriving DecidableEq, Repr

namespace LifecycleError

def message : LifecycleError → String
  | config error => error.message
  | load m error => "module " ++ m ++ " failed to load: " ++ error.message
  | busy m c refs =>
    "module " ++ m ++ " is busy: capability " ++ c.name ++ " has " ++ toString refs
      ++ " outstanding references"
  | inFlight m => "a lifecycle operation on module " ++ m ++ " is already in progress"
  | notLoaded m => "module " ++ m ++ " is not loaded"
  | hasDependents m ds => "module " ++ m ++ " is required by " ++ String.intercalate ", " ds
  | invalidTransition m source target =>
    "module " ++ m ++ " cannot move from " ++ source.label ++ " to " ++ target.label

/-- Whether trying again later may help. -/
def isBusy : LifecycleError → Bool
  | busy _ _ _ => true
  | inFlight _ => true
  | _ => false

end LifecycleError

end Backplane
