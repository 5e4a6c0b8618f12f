import Backplane.Lifecycle.Answer
import Backplane.Module.Script
/-!
# `Backplane.Session.Basic`: a host at work

A session is a list of steps taken by a host on its rack.  Each step yields a reply, and what can be
seen afterwards: what was noted and reported meanwhile, the loaded modules, and the registrations of
some capabilities.

The host has the `ModuleLoader`, its `Broker`, and whatever `ModuleContext`s have been kept.
-/
namespace Backplane

inductive SessionStep
  /-- The host acts under a name. -/
  | act (owner : String) (action : Action)
  /-- The host acts through a dossier that was kept under a name. -/
  | through (dossier : String) (step : ScriptStep)
  | call (request : LifecycleCall)
  /-- The host lets go of a service that it keeps. -/
  | dropInstance (ticket : String)
  /-- The host lets go of a dossier that was kept. -/
  | forgetDossier (name : String)
  /-- Whether the panels in two slots have the same advisors. -/
  | sameSeats (x y : String)
  | describeSlot (slot : String)

/-- The loaded modules and the registrations of some capabilities. -/
structure Snapshot where
  modules : List (String × Stage × Nat)
  interfaces : List (Capability × String × Nat)
  advisors : List (Capability × Nat)
deriving DecidableEq, Repr

/-- What can be seen after a step. -/
structure SessionView where
  reply : Reply
  journal : List JournalEntry
  /-- The warnings and errors that were reported. -/
  log : List LogEvent
  snapshot : Snapshot

namespace Session

/-- The modules and registrations of a rack, as far as they concern the given capabilities. -/
def snapshot (observed : List Capability) (r : Rack) : Snapshot where
  modules := r.members.map fun m => (m.name, m.stage, m.batch)
  interfaces := observed.filterMap fun c =>
    (r.env.broker.interfaces.find? c).map fun e => (c, e.owner, e.usage.outstanding)
  advisors := observed.filterMap fun c =>
    match r.env.broker.advisors.count c with
    | 0 => none
    | n + 1 => some (c, n + 1)

def perform (r : Rack) (p : Party) (a : Action) : Reply × Rack :=
  let x := r.env.perform p a
  (x.1, { r with env := x.2 })

/-- Takes a script's step through a dossier. -/
def through (r : Rack) (member : Nat) : ScriptStep → Reply × Rack
  | .act a _ => perform r (.delegate member) a
  | .keep name => perform r (.delegate member) (.keepDossier name)
  | .fail e => (.failed e, r)
  | .panic reason => (.failed (.panicked (reason.getD "unknown panic payload")), r)

/-- Whether the host's slots of two names hold panels of the same advisors. -/
def sameSeats (env : Environment) (x y : String) : Option Bool :=
  let host : Party := .host ""
  match env.held? (host.slot x), env.held? (host.slot y) with
  | some (.panel a), some (.panel b) =>
    some (a.seats.map (·.serial) = b.seats.map (·.serial))
  | _, _ => none

def step (r : Rack) : SessionStep → Reply × Rack
  | .act owner a => perform r (.host owner) a
  | .through name s =>
    match Keyed.get? r.env.kept name with
    | some member => through r member s
    | none => (.noDossier, r)
  | .call request =>
    let x := r.answer request
    (.called x.1, x.2)
  | .dropInstance ticket => let x := r.env.dropService ticket; (x.1, { r with env := x.2 })
  | .forgetDossier name => let x := r.env.dropDossier name; (x.1, { r with env := x.2 })
  | .sameSeats x y => (.flag (sameSeats r.env x y), r)
  | .describeSlot slot =>
    (.text ((r.env.held? ((Party.host "").slot slot)).map Environment.describeHold), r)

/-- Whether a session shows an event. -/
def isShown (e : LogEvent) : Bool := Level.warn.rank ≤ e.level.rank

/-- What can be seen after a step that began with nothing noted or reported. -/
def view (observed : List Capability) (x : Reply × Rack) : SessionView where
  reply := x.1
  journal := x.2.env.journal.filter JournalEntry.isShown
  log := x.2.env.log.filter isShown
  snapshot := snapshot observed x.2

/-- Forgets what was noted and reported. -/
def clear (r : Rack) : Rack := r.mapEnv fun env => { env with journal := [], log := [] }

def run (observed : List Capability) : List SessionStep → Rack → List SessionView
  | [], _ => []
  | s :: rest, r =>
    let x := step r s
    view observed x :: run observed rest (clear x.2)

/-- Takes steps in order, beginning with nothing loaded. -/
def start (observed : List Capability) (depot : Depot) (steps : List SessionStep) : List SessionView :=
  run observed steps { env := { depot } }

end Session

end Backplane
