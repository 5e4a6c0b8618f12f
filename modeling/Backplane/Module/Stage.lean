/-!
# `Backplane.Module.Stage`: where a module stands in its lifecycle

A module goes round one cycle, `unloaded → loading → loaded → post-loaded → pre-unloading →
pre-unloaded → unloaded`, and has two short ways back to `unloaded`: a module whose batch failed
leaves from `loading`, and one that the post-load pass never reached leaves from `loaded`.

A `Stage` models a `ModuleState`, with `can_transition_to` and `as_str`.
-/
namespace Backplane

inductive Stage
  | unloaded
  | loading
  | loaded
  | postLoaded
  | preUnloading
  | preUnloaded
deriving DecidableEq, Repr

namespace Stage

/-- Every stage, in the order of the cycle. -/
def all : List Stage := [unloaded, loading, loaded, postLoaded, preUnloading, preUnloaded]

/-- The single steps of the lifecycle. -/
def mayBecome : Stage → Stage → Bool
  | unloaded, loading => true
  | loading, loaded => true
  | loading, unloaded => true
  | loaded, postLoaded => true
  | loaded, unloaded => true
  | postLoaded, preUnloading => true
  | preUnloading, preUnloaded => true
  | preUnloaded, unloaded => true
  | _, _ => false

def label : Stage → String
  | unloaded => "unloaded"
  | loading => "loading"
  | loaded => "loaded"
  | postLoaded => "post-loaded"
  | preUnloading => "pre-unloading"
  | preUnloaded => "pre-unloaded"

def ofLabel? (s : String) : Option Stage := all.find? (·.label == s)

theorem mem_all (s : Stage) : s ∈ all := by cases s <;> decide

theorem ofLabel?_label (s : Stage) : ofLabel? s.label = some s := by cases s <;> decide

end Stage

end Backplane
