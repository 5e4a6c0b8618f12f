import Backplane.Lifecycle.Stages
/-!
# `Backplane.Lifecycle.Unload`: taking modules out

Unloading is refused, and then nothing has changed, while somebody depends on a module or refers to
what it published.  Otherwise its registrations are hidden first, so that nobody can come to refer
to them any more.

These model `unload_all` and `unload_module` of the `ModuleLoader`, with `retire_all`.
-/
namespace Backplane

/-- Retires the registrations of members in order; `done` are the members that came before.  If one
is in use all that was retired is restored. -/
def retireMembers (done : List Member) :
    List Member → Environment → Option (Member × Capability × Nat) × Environment
  | [], env => (none, env)
  | m :: rest, env =>
    let r := env.retireRegistrations m.actor
    match r.1 with
    | none => retireMembers (done ++ [m]) rest r.2
    | some (c, refs) =>
      (some (m, c, refs), done.foldl (fun env x => env.restoreRegistrations x.actor) r.2)

/-- Takes members down in order; yields the names of those that went, and the members that are
left. -/
def tearDownAll :
    List Member → Environment → Except LifecycleError (List String) × List Member × Environment
  | [], env => (.ok [], [], env)
  | m :: rest, env =>
    let r := m.teardown env
    match r.1 with
    | .error e => (.error e, rest, r.2)
    | .ok () =>
      let more := tearDownAll rest r.2
      (more.1.map (m.name :: ·), more.2.1, more.2.2)

namespace Rack

/-- Takes every member down, the last one first. -/
def tearDown (r : Rack) : Except LifecycleError (List String) × Rack :=
  let done := tearDownAll r.members.reverse r.env
  let after : Rack := { r with members := done.2.1.reverse, env := done.2.2 }
  match done.1 with
  | .ok names => (.ok names, after.mapEnv fun env => env.report .info .loader "All modules unloaded")
  | .error e => (.error e, after)

/-- Hides every registration and takes every member down. -/
def retireAndTearDown (r : Rack) : Except LifecycleError (List String) × Rack :=
  let retired := retireMembers [] r.members.reverse r.env
  match retired.1 with
  | none => { r with env := retired.2 }.tearDown
  | some (m, c, refs) =>
    (.error (.busy m.name c refs),
      { r with
        env := retired.2.report .warn .loader
          ("Unload refused: module " ++ m.name ++ " capability " ++ c.name ++ " has " ++ toString refs
            ++ " outstanding references") })

/-- Unloads every module, the last one first.  None may be attached. -/
def unloadAll (r : Rack) : Except LifecycleError (List String) × Rack :=
  let begun := r.mapEnv fun env =>
    env.report .info .loader ("Unloading " ++ toString r.members.length ++ " modules")
  match r.members.reverse.find? fun m => m.stage = .postLoaded with
  | some m => (.error (.invalidTransition m.name m.stage .unloaded), begun)
  | none => begun.retireAndTearDown

/-- The names of the members that depend on a module, in load order. -/
def dependentsOf (r : Rack) (name : String) : List String :=
  (r.members.filter fun m => m.dependencies.contains name).map Member.name

/-- The members with the one of a given instance replaced. -/
def replace (members : List Member) (m : Member) : List Member :=
  members.map fun x => if x.actor.member = m.actor.member then m else x

def without (members : List Member) (m : Member) : List Member :=
  members.filter fun x => x.actor.member ≠ m.actor.member

/-- Takes out a member whose registrations are hidden. -/
def takeOut (r : Rack) (m : Member) : Except LifecycleError Unit × Rack :=
  -- what the hook publishes now has not been retired, and can be looked up
  let ready := if m.stage = .postLoaded then m.preUnload r.env else (.ok (), m, r.env)
  match ready.1 with
  | .error e => (.error e, { r with members := replace r.members ready.2.1, env := ready.2.2 })
  | .ok () =>
    let done := ready.2.1.teardown ready.2.2
    -- the member goes even if taking it down fails
    (done.1, { r with members := without r.members m, env := done.2 })

/-- Unloads a module that nobody depends on. -/
def unloadMember (r : Rack) (m : Member) : Except LifecycleError Unit × Rack :=
  let retired := r.env.retireRegistrations m.actor
  match retired.1 with
  | none => { r with env := retired.2 }.takeOut m
  | some (c, refs) =>
    (.error (.busy m.name c refs),
      { r with
        env := retired.2.report .warn .loader
          ("Unload of " ++ m.name ++ " refused: capability " ++ c.name ++ " has " ++ toString refs
            ++ " outstanding references") })

/-- Unloads a module, if it is loaded and nobody depends on it. -/
def unloadNamed (r : Rack) (name : String) : Except LifecycleError Unit × Rack :=
  match r.find? name with
  | none => (.error (.notLoaded name), r)
  | some m =>
    match r.dependentsOf name with
    | [] => r.unloadMember m
    | dependents => (.error (.hasDependents name dependents), r)

/-- Unloads a module that no other operation is working on. -/
def unload (r : Rack) (name : String) : Except LifecycleError Unit × Rack :=
  let claim := Claim.takeAll [name] { claims := r.env.claims }
  let begun := r.withClaims claim.2.claims
  match claim.1 with
  | .error other => (.error (.inFlight other), begun)
  | .ok () =>
    let done := begun.unloadNamed name
    (done.1, done.2.release claim.2.taken)

end Rack

end Backplane
