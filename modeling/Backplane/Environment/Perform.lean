import Backplane.Environment.Claims
import Backplane.Environment.Consult
/-!
# `Backplane.Environment.Perform`: carrying out actions and hooks

A hook is run by performing its actions one after another.  A module may call the lifecycle from a
hook, but the lifecycle is at work on that very hook: such a call is refused if it concerns a module
that is being worked on, and cannot go on otherwise.

Hooks are run as `run_guarded` runs those of a `Module`, under the lock of the `ModuleLoader`.
-/
namespace Backplane

namespace Environment

/-! ## Calls from a hook -/

/-- Claims modules for a call made from a hook.  If they can be had the call waits for the operation
that it is made from, and gives them back when it is given up. -/
def tryClaim (env : Environment) (names : List String) : LifecycleReply × Environment :=
  let claim := Claim.takeAll names { claims := env.claims }
  match claim.1 with
  | .error name => (.failed (.inFlight name), { env with claims := claim.2.claims })
  | .ok () => (.blocked, { env with claims := claim.2.giveBack.claims })

def readingText (source : Source) (m : Manifest) : String :=
  "📋 Loading " ++ toString m.modules.length ++ " modules from " ++ source.label

/-- Answers a call that a hook makes. -/
def answerInside (env : Environment) : LifecycleCall → LifecycleReply × Environment
  | .load source =>
    match source.read with
    | .error e => (.failed (.config e), env)
    | .ok m => (env.report .info .loader (readingText source m)).tryClaim (m.modules.map (·.name))
  | .add name _ => env.tryClaim [name]
  | .unload name => env.tryClaim [name]
  | .describe => (.texts env.describe, env)
  | _ => (.blocked, env)

/-! ## Actions -/

def askDossier (env : Environment) (p : Party) (f : Dossier → Reply) : Reply :=
  match env.dossierOf p with
  | some d => f d
  | none => .noDossier

def keepDossier (env : Environment) (p : Party) (name : Option String) : Reply × Environment :=
  match env.dossierOf p with
  | some d => (.done, { env with kept := Keyed.put env.kept (name.getD d.module) d.member })
  | none => (.noDossier, env)

def perform (p : Party) (env : Environment) : Action → Reply × Environment
  | .publishInterface s name => env.publishInterface p s name
  | .publishAdvisor s priority name => env.publishAdvisor p s priority name
  | .withdraw name => env.withdraw p name
  | .lease k slot => env.lease p k slot
  | .panel k slot => env.panel p k slot
  | .inspect slot => (env.inspect p slot, env)
  | .release slot => env.release p slot
  | .drop slot => env.drop p slot
  | .outstanding name => (.count ((Keyed.get? env.tickets name).bind env.broker.outstanding), env)
  | .standing c => (.standing (env.standing c), env)
  | .award k => env.award k
  | .banner => env.banner
  | .filter text => env.filter text
  | .draw requests => env.draw requests
  | .registrations => (env.askDossier p fun d => .tickets (d.records.map (·.ticket)), env)
  | .moduleName => (env.askDossier p fun d => .text (some d.module), env)
  | .describe => (env.askDossier p fun d => .text (some (describeDossier d)), env)
  | .keepDossier name => env.keepDossier p name
  | .entropy => (.generator env.entropy, { env with entropy := env.entropy.next })
  | .report e => (.done, env.reportAll [e])
  | .call request =>
    let r := env.answerInside request
    (.called r.1, r.2)

/-! ## Deeds -/

/-- Lets go of a service that is kept under the name of its ticket; whether there was one. -/
def dropService (env : Environment) (ticket : String) : Reply × Environment :=
  (.flag (some (Keyed.has env.hosted ticket)), { env with hosted := Keyed.erase env.hosted ticket })

/-- Lets go of a dossier that was kept under a name; whether there was one. -/
def dropDossier (env : Environment) (name : String) : Reply × Environment :=
  (.flag (some (Keyed.has env.kept name)), { env with kept := Keyed.erase env.kept name })

def carryOut (member : Nat) (env : Environment) : Deed → Reply × Environment
  | .through name action =>
    match Keyed.get? env.kept name with
    | some n => env.perform ⟨.member member, .dossier n⟩ action
    | none => (.noDossier, env)
  | .direct owner action => env.perform ⟨.member member, .owner owner⟩ action
  | .dropService ticket => env.dropService ticket
  | .dropDossier name => env.dropDossier name

def carryOutAll (member : Nat) (env : Environment) (deeds : List Deed) : Environment :=
  deeds.foldl (fun env d => (carryOut member env d).2) env

/-! ## Hooks -/

/-- Runs a behaviour to its end. -/
def run (who : Actor) (hook : Hook) : Behaviour → Environment → Ending × Environment
  | .finish ending, env => (ending, env)
  | .mention action reply next, env => run who hook next (env.note (.did who hook action reply))
  | .perform action next, env =>
    let r := env.perform (.member who.member) action
    run who hook (next r.1) r.2
  | .carryOut deed next, env =>
    let r := carryOut who.member env deed
    run who hook (next r.1) r.2

/-- Runs a hook: the failure it ends with, if any. -/
def runHook (env : Environment) (who : Actor) (hooks : Hooks) (hook : Hook) :
    Option ModuleError × Environment :=
  let r := run who hook (hooks.of hook) ((env.note (.began who hook)).mark (.began who hook))
  (r.1.failure?, r.2.mark (.ended who hook r.1.failure?))

end Environment

end Backplane
