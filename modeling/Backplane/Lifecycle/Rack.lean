import Backplane.Lifecycle.Member
import Backplane.Plan.Basic
/-!
# `Backplane.Lifecycle.Rack`: the loaded modules, and loading more

The members of a rack stand in the order of loading.  Modules are loaded in batches: either all of a
batch end up loaded, or the batch is unwound, the last member first, and nothing of it remains.

A `Rack` models the `ModuleLoader` with its `LoaderState`; `Rack.load` and `Rack.add` are
`load_from_config` and `add_module`, by way of `load_batch` and `load_one`.
-/
namespace Backplane

/-- The loaded modules in their environment. -/
structure Rack where
  env : Environment
  /-- In load order. -/
  members : List Member := []
  nextBatch : Nat := 1

namespace Rack

def names (r : Rack) : List String := r.members.map Member.name

def find? (r : Rack) (name : String) : Option Member := r.members.find? fun m => m.name = name

def mapEnv (r : Rack) (f : Environment → Environment) : Rack := { r with env := f r.env }

def withClaims (r : Rack) (claims : List String) : Rack := r.mapEnv fun env => { env with claims }

/-- Takes claims on modules back. -/
def release (r : Rack) (names : List String) : Rack := r.withClaims (unclaim r.env.claims names)

end Rack

/-! ## One module -/

/-- The environment in which an instance has a dossier. -/
def Environment.openDossier (env : Environment) (who : Actor) (quiet : Bool) : Environment :=
  { env with dossiers := env.dossiers ++ [{ member := who.member, module := who.module, quiet }] }

/-- The next instance of a planned module, and the environment in which its building has begun. -/
def PlannedModule.begin (p : PlannedModule) (env : Environment) : Actor × Environment :=
  let who : Actor := ⟨env.nextMember, p.name, p.blueprint.watched⟩
  (who, { env with nextMember := env.nextMember + 1 }.note (.created who))

/-- Warns of an instance that goes by another name. -/
def PlannedModule.checkName (p : PlannedModule) (body : Instance) (env : Environment) : Environment :=
  if body.selfName = p.name then env
  else
    env.report .warn .loader
      ("Factory for " ++ p.name ++ " built a module that calls itself " ++ body.selfName)

/-- Runs the load hook of a new member.  If it fails nothing of the member remains. -/
def Member.load (m : Member) (env : Environment) : Except ModuleError Member × Environment :=
  match m.advance .loading env with
  | .error e => (.error (.initializationFailed e.message), m.leave env)
  | .ok (m₁, env₁) =>
    let r := env₁.runHook m₁.actor m₁.body.hooks .load
    match r.1 with
    | some e => (.error e, m₁.discardReported r.2)
    | none =>
      match m₁.advance .loaded r.2 with
      | .error e => (.error (.initializationFailed e.message), m₁.leave r.2)
      | .ok (m₂, env₂) =>
        (.ok m₂,
          env₂.report .info .loader
            ("Module " ++ m₂.name ++ " v" ++ m₂.body.version ++ " loaded from unit " ++ m₂.unit))

/-- Builds a module and runs its load hook.  If building fails, what the instance would have held is
given back. -/
def PlannedModule.load (p : PlannedModule) (batch : Nat) (env : Environment) :
    Except ModuleError Member × Environment :=
  let begun := p.begin env
  let built := begun.2.carryOutAll begun.1.member p.blueprint.preparations
  match p.blueprint.construction.result with
  | .error e => (.error e, built.emptySlots begun.1.member)
  | .ok body =>
    let there := (p.checkName body built).mark (.built begun.1 p.dependencies)
    let opened := there.openDossier begun.1 p.unit.isDynamic
    Member.load
      { actor := begun.1, body, unit := p.unit.reference, batch, dependencies := p.dependencies } opened

/-! ## Batches -/

/-- Discards members in order. -/
def unwind (env : Environment) (members : List Member) : Environment :=
  members.foldl
    (fun env m => m.discardReported (env.report .warn .loader ("Unwinding module " ++ m.name))) env

/-- Loads modules in order, behind the members of the batch that are loaded already.  If one fails,
those are discarded, the last one first. -/
def loadAll (batch : Nat) :
    List PlannedModule → List Member → Environment → Except LifecycleError (List Member) × Environment
  | [], done, env => (.ok done, env)
  | p :: rest, done, env =>
    let r := p.load batch env
    match r.1 with
    | .ok m => loadAll batch rest (done ++ [m]) r.2
    | .error e =>
      let reported := r.2.report .error .loader
        ("❌ Module " ++ p.name ++ " failed to load: " ++ e.message)
      (.error (.load p.name e), unwind reported done.reverse)

namespace Rack

/-- Loads a plan as one batch. -/
def loadBatch (r : Rack) (plan : List PlannedModule) : Except LifecycleError (List String) × Rack :=
  let batch := r.nextBatch
  let env := r.env.report .info .loader
    ("Loading batch " ++ toString batch ++ " with " ++ toString plan.length ++ " modules")
  let loaded := loadAll batch plan [] env
  match loaded.1 with
  | .error e => (.error e, { r with env := loaded.2, nextBatch := batch + 1 })
  | .ok members =>
    let names := members.map Member.name
    (.ok names,
      { env := loaded.2.report .info .loader
          ("✅ Batch " ++ toString batch ++ " loaded: " ++ String.intercalate ", " names)
        members := r.members ++ members
        nextBatch := batch + 1 })

def plan (r : Rack) (m : Manifest) : Except PlanError (List PlannedModule) × Rack :=
  let outcome := Plan.make r.env.depot r.names m
  (outcome.result, r.mapEnv fun env => { env with depot := outcome.depot }.reportAll outcome.events)

def loadPlanned (r : Rack) (m : Manifest) : Except LifecycleError (List String) × Rack :=
  let planned := r.plan m
  match planned.1 with
  | .error e => (.error (.config e), planned.2)
  | .ok plan => planned.2.loadBatch plan

/-- Loads a manifest, whose modules no other operation may be working on. -/
def loadManifest (r : Rack) (m : Manifest) : Except LifecycleError (List String) × Rack :=
  let claim := Claim.takeAll (m.modules.map (·.name)) { claims := r.env.claims }
  let begun := r.withClaims claim.2.claims
  match claim.1 with
  | .error name => (.error (.inFlight name), begun)
  | .ok () =>
    let done := begun.loadPlanned m
    (done.1, done.2.release claim.2.taken)

def load (r : Rack) (source : Source) : Except LifecycleError (List String) × Rack :=
  match source.read with
  | .error e => (.error (.config e), r)
  | .ok m =>
    (r.mapEnv fun env => env.report .info .loader (Environment.readingText source m)).loadManifest m

def add (r : Rack) (name : String) (unit : Option String) : Except LifecycleError Unit × Rack :=
  let done := r.loadManifest ⟨[{ name, unit }]⟩
  (done.1.map fun _ => (), done.2)

end Rack

end Backplane
