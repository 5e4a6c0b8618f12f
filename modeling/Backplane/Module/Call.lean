import Backplane.Manifest.Text
import Backplane.Module.Error
/-!
# `Backplane.Module.Call`: requests to the lifecycle and what they yield

Each request models an operation of the `ModuleLoader`; what is told of a module is its
`ModuleInfo`.
-/
namespace Backplane

inductive LifecycleCall
  /-- Loads the modules of a manifest as one batch. -/
  | load (source : Source)
  /-- Loads one module as a batch of its own. -/
  | add (name : String) (unit : Option String)
  /-- Runs the hook after loading on every module that has not had it. -/
  | postLoad
  /-- Runs the hook before unloading on every module that has been attached. -/
  | preUnload
  | unloadAll
  | unload (name : String)
  | modules
  | info (name : String)
  | loaded
  | stage (name : String)
  /-- Plans a manifest against what is loaded. -/
  | plan (source : Source)
  | describe

structure ModuleInfo where
  name : String
  version : String
  unit : String
  stage : Stage
  batch : Nat
  dependencies : List String
  /-- The capabilities it publishes, in the order of registration. -/
  capabilities : List Capability
deriving DecidableEq, Repr

inductive LifecycleReply
  | done
  | names (xs : List String)
  | count (n : Nat)
  | infos (xs : List ModuleInfo)
  | info (x : Option ModuleInfo)
  | stage (s : Option Stage)
  | texts (xs : List String)
  | failed (error : LifecycleError)
  /-- The request would have to wait for the operation that it is made from. -/
  | blocked
deriving DecidableEq, Repr

end Backplane
