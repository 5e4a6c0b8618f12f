import Backplane.Lifecycle.Unload
/-!
# `Backplane.Lifecycle.Answer`: serving requests to the lifecycle

Each request models an operation of the `ModuleLoader`.
-/
namespace Backplane

/-- The reply that says how an operation ended. -/
def LifecycleReply.ofResult {α : Type} (f : α → LifecycleReply) : Except LifecycleError α → LifecycleReply
  | .ok x => f x
  | .error e => .failed e

namespace Rack

def infos (r : Rack) : List ModuleInfo := r.members.map (Member.info r.env)

/-- The rack after a look at a source: its depot knows of the file. -/
def learn (r : Rack) : Source → Rack
  | .file path (.ok content) => r.mapEnv fun env => { env with depot := env.depot.withFile path content }
  | _ => r

def planSource (r : Rack) (source : Source) : Except LifecycleError (List String) × Rack :=
  match source.read with
  | .error e => (.error (.config e), r)
  | .ok m =>
    let planned := r.plan m
    match planned.1 with
    | .error e => (.error (.config e), planned.2)
    | .ok plan => (.ok (plan.map (·.name)), planned.2)

def answer (r : Rack) : LifecycleCall → LifecycleReply × Rack
  | .load source => let x := (r.learn source).load source; (.ofResult .names x.1, x.2)
  | .add name unit => let x := r.add name unit; (.ofResult (fun _ => .done) x.1, x.2)
  | .postLoad => let x := r.postLoad; (.ofResult .count x.1, x.2)
  | .preUnload => let x := r.preUnload; (.ofResult .count x.1, x.2)
  | .unloadAll => let x := r.unloadAll; (.ofResult .names x.1, x.2)
  | .unload name => let x := r.unload name; (.ofResult (fun _ => .done) x.1, x.2)
  | .modules => (.infos r.infos, r)
  | .info name => (.info ((r.find? name).map (Member.info r.env)), r)
  | .loaded => (.names r.names, r)
  | .stage name => (.stage ((r.find? name).map (·.stage)), r)
  | .plan source => let x := (r.learn source).planSource source; (.ofResult .names x.1, x.2)
  | .describe => (.texts r.env.describe, r)

end Rack

end Backplane
