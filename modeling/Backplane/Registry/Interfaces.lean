import Backplane.Registry.Book
/-!
# `Backplane.Registry.Interfaces`: exclusive capabilities

Each capability has at most one provider here.  A lookup takes a counted reference, a lease.

Whether a service is still alive is not known here: its owner keeps it, so the operations that
need to know take it as an argument.

`Interfaces` models the `InterfaceRegistry`, a `Lease` an `InterfaceRef`.
-/
namespace Backplane

/-- The exclusive registrations. -/
abbrev Interfaces := Book Unit

/-- A counted reference to an exclusive registration. -/
structure Lease where
  contract : Contract
  serial : Nat
  owner : String
  service : ServiceId
deriving DecidableEq, Repr

namespace Interfaces

def find? (r : Interfaces) (c : Capability) : Option (Registration Unit) :=
  r.entries.find? fun e => e.contract.capability = c

/-- Publishes a service under a free capability; answers the serial number of the registration. -/
def register (r : Interfaces) (k : Contract) (owner : String) (service : ServiceId) :
    Except RegistryError (Nat × Interfaces) :=
  match r.find? k.capability with
  | some e => .error (.duplicate k.capability e.owner)
  | none =>
    let e : Registration Unit := { rank := (), serial := r.nextSerial, contract := k, owner, service }
    .ok (r.nextSerial, { r with entries := r.entries ++ [e], nextSerial := r.nextSerial + 1 })

/-- Looks a contract up and takes a lease on its service. -/
def lease (alive : ServiceId → Bool) (r : Interfaces) (k : Contract) :
    Except RegistryError (Lease × Interfaces) :=
  match r.find? k.capability with
  | none => .error (.notFound k.capability)
  | some e =>
    if e.contract.shape ≠ k.shape then .error (.shapeMismatch k.capability)
    else if !alive e.service then .error (.notFound k.capability)
    else
      match e.usage.acquire with
      | none => .error (.notFound k.capability)
      | some u => .ok (⟨e.contract, e.serial, e.owner, e.service⟩, r.setUsage e.serial u)

/-! ## Observations -/

/-- The outstanding references of whoever provides a capability. -/
def outstandingOf (r : Interfaces) (c : Capability) : Option Nat :=
  (r.find? c).map (·.usage.outstanding)

def ownerOf (r : Interfaces) (c : Capability) : Option String := (r.find? c).map (·.owner)

def contains (r : Interfaces) (c : Capability) : Bool := (r.find? c).isSome

def size (r : Interfaces) : Nat := r.entries.length

end Interfaces

end Backplane
