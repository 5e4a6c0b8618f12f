import Backplane.Environment.Perform
/-!
# `Backplane.Lifecycle.Registrations`: a module's registrations taken together

Before a module is unloaded all its registrations are retired, or none is: if one is in use, those
retired before it are restored.  Afterwards they are removed, the last one first.

These model `retire_registrations`, `restore_registrations`, `remove_registrations` and
`force_remove_registrations` of a `ModuleContext`.
-/
namespace Backplane.Environment

def ticketsOf (env : Environment) (member : Nat) : List Ticket :=
  (env.dossier? member).elim [] fun d => d.records.map (·.ticket)

/-- Makes retired registrations visible again. -/
def restoreAll (env : Environment) (ts : List Ticket) : Environment :=
  { env with broker := ts.foldl Broker.restore env.broker }

/-- Retires registrations in order; `done` are those that came before.  Yields the first capability
that is in use, with its count. -/
def retireAll (module : String) (done : List Ticket) :
    List Ticket → Environment → Option (Capability × Nat) × Environment
  | [], env => (none, env)
  | t :: rest, env =>
    match env.broker.retire t with
    | .ok b => retireAll module (done ++ [t]) rest { env with broker := b }
    | .error (.busy _ refs) => (some (t.capability, refs), env.restoreAll done)
    -- a ticket that names nothing does not stand in the way
    | .error e =>
      retireAll module (done ++ [t]) rest
        (env.report .warn .context ("Module " ++ module ++ ": " ++ e.message))

/-- Retires the registrations of an instance. -/
def retireRegistrations (env : Environment) (who : Actor) : Option (Capability × Nat) × Environment :=
  retireAll who.module [] (env.ticketsOf who.member) env

/-- Takes the retirement of an instance's registrations back. -/
def restoreRegistrations (env : Environment) (who : Actor) : Environment :=
  env.restoreAll (env.ticketsOf who.member)

/-- Removes a registration whatever its count. -/
def forceRemove (module : String) (env : Environment) (t : Ticket) : Environment :=
  let r := env.broker.forceRemove t
  let after := { env with broker := r.2 }
  match r.1 with
  | some (refs + 1) =>
    after.report .error .context
      ("Module " ++ module ++ ": removed " ++ t.capability.name ++ " with " ++ toString (refs + 1)
        ++ " references still outstanding")
  | _ => after

/-- Removes a registration; by force if it cannot be removed otherwise. -/
def removeTicket (module : String) (env : Environment) (t : Ticket) : Environment :=
  match env.withdrawTicket t with
  | .ok after => after
  | .error e =>
    forceRemove module
      (env.report .error .context ("Module " ++ module ++ ": failed to unregister: " ++ e.message)) t

/-- Empties the dossier of an instance, whose registrations are about to be removed. -/
def clearRecords (env : Environment) (member : Nat) : Environment :=
  { env.changeDossier member (fun d => { d with records := [] }) with
    history := env.history ++ (env.ticketsOf member).map .removed }

/-- Removes the registrations of an instance, the last one first. -/
def removeRegistrations (env : Environment) (who : Actor) : Environment :=
  (env.ticketsOf who.member).reverse.foldl (removeTicket who.module) (env.clearRecords who.member)

def forceRemoveRegistrations (env : Environment) (who : Actor) : Environment :=
  (env.ticketsOf who.member).reverse.foldl (forceRemove who.module) (env.clearRecords who.member)

end Backplane.Environment
