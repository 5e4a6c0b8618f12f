import Backplane.Lifecycle.Rack
/-!
# `Backplane.Lifecycle.Stages`: attaching and detaching

The hook after loading runs on every member that has not had it, in load order; the hook before
unloading on every member that has been attached, the last one first.  A hook that fails does not
stop the others, and its member moves on all the same.

These model `do_post_load_stage` and `do_pre_unload_stage` of the `ModuleLoader`.
-/
namespace Backplane

/-- Runs the hook after loading on members in order; yields how many moved on. -/
def attachAll : List Member → Environment → Except LifecycleError Nat × List Member × Environment
  | [], env => (.ok 0, [], env)
  | m :: rest, env =>
    if m.stage = .loaded then
      let after := m.runReported .postLoad env
      match m.advance .postLoaded after with
      | .error e => (.error e, m :: rest, after)
      | .ok (m', env') =>
        let more := attachAll rest env'
        (more.1.map (· + 1), m' :: more.2.1, more.2.2)
    else
      let more := attachAll rest env
      (more.1, m :: more.2.1, more.2.2)

/-- Runs the hook before unloading on members in order; yields how many moved on. -/
def detachAll : List Member → Environment → Except LifecycleError Nat × List Member × Environment
  | [], env => (.ok 0, [], env)
  | m :: rest, env =>
    if m.stage = .postLoaded then
      let r := m.preUnload env
      match r.1 with
      | .error e => (.error e, r.2.1 :: rest, r.2.2)
      | .ok () =>
        let more := detachAll rest r.2.2
        (more.1.map (· + 1), r.2.1 :: more.2.1, more.2.2)
    else
      let more := detachAll rest env
      (more.1, m :: more.2.1, more.2.2)

namespace Rack

def reportPass (r : Rack) (pass : String) : Except LifecycleError Nat → Rack
  | .ok n =>
    r.mapEnv fun env =>
      env.report .info .loader (pass ++ " stage complete for " ++ toString n ++ " modules")
  | .error _ => r

/-- Runs the hook after loading where it is due. -/
def postLoad (r : Rack) : Except LifecycleError Nat × Rack :=
  let done := attachAll r.members r.env
  (done.1, { r with members := done.2.1, env := done.2.2 }.reportPass "Post-load" done.1)

def preUnload (r : Rack) : Except LifecycleError Nat × Rack :=
  let done := detachAll r.members.reverse r.env
  (done.1, { r with members := done.2.1.reverse, env := done.2.2 }.reportPass "Pre-unload" done.1)

end Rack

end Backplane
