import Backplane.Lifecycle.Registrations
/-!
# `Backplane.Lifecycle.Member`: a loaded module

A member moves through the stages step by step.  Its hooks may fail: except when loading, that is
only reported.  When it leaves, its instance is dropped with the references in its slots, and its
dossier is let go.

A `Member` models a `ModuleRecord`, with `pre_unload`, `teardown` and `discard`.
-/
namespace Backplane

/-- A module instance in the hands of the lifecycle. -/
structure Member where
  actor : Actor
  body : Instance
  /-- The reference of the unit that it came from. -/
  unit : String
  stage : Stage := .unloaded
  batch : Nat
  dependencies : List String

namespace Member

def name (m : Member) : String := m.actor.module

/-- Moves on to a stage, if the lifecycle allows it. -/
def advance (m : Member) (next : Stage) (env : Environment) :
    Except LifecycleError (Member × Environment) :=
  if m.stage.mayBecome next then
    .ok ({ m with stage := next },
      env.report .debug .loader
        ("Module " ++ m.name ++ ": " ++ m.stage.label ++ " -> " ++ next.label))
  else .error (.invalidTransition m.name m.stage next)

def info (env : Environment) (m : Member) : ModuleInfo where
  name := m.name
  version := m.body.version
  unit := m.unit
  stage := m.stage
  batch := m.batch
  dependencies := m.dependencies
  capabilities := (env.ticketsOf m.actor.member).map Ticket.capability

def hookWord : Hook → String
  | .load => "load"
  | .postLoad => "post-load"
  | .preUnload => "pre-unload"
  | .unload => "unload"

/-- Runs a hook whose failure is only reported. -/
def runReported (m : Member) (hook : Hook) (env : Environment) : Environment :=
  let r := env.runHook m.actor m.body.hooks hook
  match r.1 with
  | none => r.2
  | some e =>
    r.2.report .error .loader ("Module " ++ m.name ++ " " ++ hookWord hook ++ " failed: " ++ e.message)

/-- Drops the instance, and with it the references in its slots. -/
def dropInstance (m : Member) (env : Environment) : Environment :=
  ((env.note (.dropped m.actor)).mark (.dropped m.actor)).emptySlots m.actor.member

/-- Lets go of the dossier. -/
def detach (m : Member) (env : Environment) : Environment :=
  env.changeDossier m.actor.member fun d => { d with attached := false }

def leave (m : Member) (env : Environment) : Environment := m.detach (m.dropInstance env)

/-- Takes out a member whose batch failed: no hook is run, and what it registered is removed by
force. -/
def discard (m : Member) (env : Environment) : Except LifecycleError Unit × Environment :=
  let moved := m.advance .unloaded env
  let start := match moved with
    | .ok x => x.2
    | .error _ => env
  let removed := (m.dropInstance start).forceRemoveRegistrations m.actor
  let last := removed.report .debug .loader ("Module " ++ m.name ++ " discarded")
  (moved.map fun _ => (), m.detach last)

def discardReported (m : Member) (env : Environment) : Environment :=
  let r := m.discard env
  match r.1 with
  | .ok () => r.2
  | .error e => r.2.report .error .loader ("Unwind: " ++ e.message)

def preUnload (m : Member) (env : Environment) : Except LifecycleError Unit × Member × Environment :=
  match m.advance .preUnloading env with
  | .error e => (.error e, m, env)
  | .ok (m₁, env₁) =>
    let env₂ := m₁.runReported .preUnload env₁
    match m₁.advance .preUnloaded env₂ with
    | .error e => (.error e, m₁, env₂)
    | .ok (m₂, env₃) => (.ok (), m₂, env₃)

/-- Removes the registrations, which have been retired, runs the unload hook and lets the member
go. -/
def teardown (m : Member) (env : Environment) : Except LifecycleError Unit × Environment :=
  let env₁ := m.runReported .unload (env.removeRegistrations m.actor)
  match m.advance .unloaded env₁ with
  | .error e => (.error e, m.leave env₁)
  | .ok (_, env₂) => (.ok (), m.leave (env₂.report .info .loader ("🔌 Module " ++ m.name ++ " unloaded")))

end Member

end Backplane
