import Backplane.Bundle.Depot
import Backplane.Distinct
import Backplane.Log
import Backplane.Plan.Order
/-!
# `Backplane.Plan.Basic`: from a manifest to the modules to load, in order

Planning checks the declarations by themselves, finds the unit and the blueprint of each, checks
that all that is needed is declared or loaded, and puts the modules in order.  The first step that
finds a fault ends it.

`Plan.make` models `plan_config` of the `Catalog`; the `PlannedModule`s that it yields are the
`LoadPlan`.
-/
namespace Backplane

structure PlannedModule where
  name : String
  unit : ResolvedUnit
  blueprint : Blueprint
  /-- What the declaration and the blueprint ask for, each once. -/
  dependencies : List String

def PlannedModule.describe (p : PlannedModule) : String :=
  withFields "PlannedModule"
    [("name", quoted p.name), ("unit", quoted p.unit.reference),
      ("dependencies", bracketed (p.dependencies.map quoted))]

namespace Plan

/-- The first fault of declarations by themselves; `seen` are the names declared before. -/
def fault? (loaded : List String) : List String → List Declaration → Option PlanError
  | _, [] => none
  | seen, d :: ds =>
    match d.fault? with
    | some f => some (.invalid f)
    | none =>
      if seen.contains d.name then some (.declaredTwice d.name)
      else if loaded.contains d.name then some (.alreadyLoaded d.name)
      else fault? loaded (d.name :: seen) ds

/-- What is reported when a unit is opened. -/
def opening (unit : Option String) : Finding → List LogEvent
  | .known _ => []
  | .opened u path =>
    [⟨.debug, .units, "Opening unit library " ++ path⟩,
      ⟨.info, .units, "📦 Loaded unit " ++ unit.getD "" ++ " from " ++ path ++ " ("
        ++ toString u.bundle.names.length ++ " modules)"⟩]
  | .failed _ path => [⟨.debug, .units, "Opening unit library " ++ path⟩]

/-- What came of an attempt, the depot after it, and what was reported. -/
structure Outcome (α : Type) where
  result : Except PlanError α
  depot : Depot
  events : List LogEvent := []

/-- Finds the unit and the blueprint of a declaration. -/
def locate (depot : Depot) (d : Declaration) : Outcome PlannedModule :=
  let r := depot.resolve d.unit
  { result := r.1.bind fun u => (u.blueprint d.name).map fun b =>
      ⟨d.name, u, b, distinct (d.dependsOn ++ b.dependencies)⟩
    depot := r.2
    events := opening d.unit (depot.find d.unit) }

/-- Finds the units and the blueprints of declarations, as far as they can be found. -/
def locateAll (depot : Depot) : List Declaration → Outcome (List PlannedModule)
  | [] => ⟨.ok [], depot, []⟩
  | d :: ds =>
    let one := locate depot d
    match one.result with
    | .error e => ⟨.error e, one.depot, one.events⟩
    | .ok p =>
      let more := locateAll one.depot ds
      ⟨more.result.map (p :: ·), more.depot, one.events ++ more.events⟩

/-- The first dependency that is neither declared nor loaded. -/
def missing? (names loaded : List String) (planned : List PlannedModule) : Option PlanError :=
  planned.findSome? fun p =>
    (p.dependencies.find? fun d => !names.contains d && !loaded.contains d).map
      (PlanError.missingDependency p.name)

/-- The declared modules that a module needs, by number. -/
def needs (names : List String) (p : PlannedModule) : List Nat := p.dependencies.filterMap names.idxOf?

def arrange (loaded : List String) (planned : List PlannedModule) :
    Except PlanError (List PlannedModule) :=
  let names := planned.map (·.name)
  match missing? names loaded planned with
  | some e => .error e
  | none =>
    match Order.resolve (planned.map (needs names)) with
    | .ok order => .ok (order.filterMap (planned[·]?))
    | .error cycle => .error (.cycle (cycle.filterMap (names[·]?)))

/-- Plans a manifest against what is loaded. -/
def make (depot : Depot) (loaded : List String) (m : Manifest) : Outcome (List PlannedModule) :=
  match fault? loaded [] m.modules with
  | some e => ⟨.error e, depot, []⟩
  | none =>
    let located := locateAll depot m.modules
    { located with result := located.result.bind (arrange loaded) }

end Plan

end Backplane
