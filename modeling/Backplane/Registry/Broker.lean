import Backplane.Registry.Interfaces
import Backplane.Registry.Advisors
/-!
# `Backplane.Registry.Broker`: both registries under one roof

A ticket says which registry it belongs to, so withdrawing, retiring, restoring and removing by
force are each one operation here.  What a user holds is a lease or a panel.

This models the `Broker`, with `RegistrationToken`s as tickets.  A lease models an `InterfaceRef`, a
panel an `AdvisorSnapshot`.
-/
namespace Backplane

/-- The two registries. -/
structure Broker where
  interfaces : Interfaces := {}
  advisors : Advisors := {}
deriving Repr

/-- A reference in somebody's hands. -/
inductive Hold
  | lease (l : Lease)
  | panel (p : Panel)
deriving DecidableEq, Repr

def Hold.services : Hold → List ServiceId
  | lease l => [l.service]
  | panel p => p.seats.map (·.service)

def Hold.capability : Hold → Capability
  | lease l => l.contract.capability
  | panel p => p.contract.capability

namespace Broker

/-- Lifts an operation on the exclusive registrations. -/
def onInterfaces (b : Broker) (f : Interfaces → Except RegistryError Interfaces) :
    Except RegistryError Broker :=
  (f b.interfaces).map fun i => { b with interfaces := i }

/-- Lifts an operation on the advisory registrations. -/
def onAdvisors (b : Broker) (f : Advisors → Except RegistryError Advisors) :
    Except RegistryError Broker :=
  (f b.advisors).map fun a => { b with advisors := a }

/-- Removes the registration of a ticket, if nobody refers to it. -/
def withdraw (b : Broker) : Ticket → Except RegistryError Broker
  | .interface c n => b.onInterfaces (·.unregister c n)
  | .advisor c n => b.onAdvisors (·.unregister c n)

/-- Hides the registration of a ticket, if nobody refers to it. -/
def retire (b : Broker) : Ticket → Except RegistryError Broker
  | .interface c n => b.onInterfaces (·.retire c n)
  | .advisor c n => b.onAdvisors (·.retire c n)

def restore (b : Broker) : Ticket → Broker
  | .interface c n => { b with interfaces := b.interfaces.restore c n }
  | .advisor c n => { b with advisors := b.advisors.restore c n }

/-- Removes the registration of a ticket whatever its count. -/
def forceRemove (b : Broker) : Ticket → Option Nat × Broker
  | .interface c n =>
    let r := b.interfaces.forceRemove c n
    (r.1, { b with interfaces := r.2 })
  | .advisor c n =>
    let r := b.advisors.forceRemove c n
    (r.1, { b with advisors := r.2 })

def outstanding (b : Broker) : Ticket → Option Nat
  | .interface c n => b.interfaces.outstanding c n
  | .advisor c n => b.advisors.outstanding c n

def ownerOf (b : Broker) : Ticket → Option String
  | .interface c n => (b.interfaces.present? c n).map (·.owner)
  | .advisor c n => (b.advisors.present? c n).map (·.owner)

def lease (alive : ServiceId → Bool) (b : Broker) (k : Contract) :
    Except RegistryError (Lease × Broker) :=
  (b.interfaces.lease alive k).map fun r => (r.1, { b with interfaces := r.2 })

def panel (alive : ServiceId → Bool) (b : Broker) (k : Contract) :
    Except RegistryError Panel × Broker :=
  let r := b.advisors.panel alive k
  (r.1, { b with advisors := r.2 })

def giveBack (b : Broker) : Hold → Except RegistryError Unit × Broker
  | .lease l =>
    match b.interfaces.giveBack l.serial with
    | some i => (.ok (), { b with interfaces := i })
    | none => (.error (.underflow l.contract.capability), b)
  | .panel p =>
    let r := Advisors.giveBackSeats p.contract.capability p.seats b.advisors
    (r.1, { b with advisors := r.2 })

end Broker

end Backplane
