/-!
# `Backplane.Registry.Capability`: what a registration is published under

A capability is a name that modules agree on.  A contract is a capability together with the shape of
the services published under it; two parties that use one name for different shapes do not fit
together.

A `Capability` models a `CapabilityId`, and the shape of a contract the type that is a `Capability`
under it.  A `Ticket` models a `RegistrationToken`.
-/
namespace Backplane

structure Capability where
  name : String
deriving DecidableEq, Repr

inductive Shape
  /-- A service that yields a number. -/
  | value
  /-- A second shape that yields a number, which does not fit the first. -/
  | alternate
  | generator
  | wordFilter
  | killPoints
  | bannerPermit
deriving DecidableEq, Repr

/-- A capability with the shape of its services. -/
structure Contract where
  capability : Capability
  shape : Shape
deriving DecidableEq, Repr

namespace Contract

/-- Random numbers. -/
def generator : Contract := ⟨⟨"prng"⟩, .generator⟩

/-- Masking of offensive words. -/
def wordFilter : Contract := ⟨⟨"obscenity"⟩, .wordFilter⟩

/-- Points for kills. -/
def killPoints : Contract := ⟨⟨"kill-points"⟩, .killPoints⟩

/-- Permission to show a banner. -/
def bannerPermit : Contract := ⟨⟨"banner-advisor"⟩, .bannerPermit⟩

end Contract

inductive RegistryError
  /-- An exclusive capability already has a provider. -/
  | duplicate (capability : Capability) (owner : String)
  | notFound (capability : Capability)
  | busy (capability : Capability) (refs : Nat)
  /-- A reference was given back that had not been taken. -/
  | underflow (capability : Capability)
  /-- The ticket names no present registration. -/
  | unknownTicket (capability : Capability)
  /-- The registration has another shape than the one asked for. -/
  | shapeMismatch (capability : Capability)
deriving DecidableEq, Repr

def RegistryError.message : RegistryError → String
  | duplicate c owner => "capability " ++ c.name ++ " is already registered by module " ++ owner
  | notFound c => "capability " ++ c.name ++ " is not registered"
  | busy c refs =>
    "capability " ++ c.name ++ " is busy with " ++ toString refs ++ " outstanding references"
  | underflow c => "reference count underflow on capability " ++ c.name
  | unknownTicket c => "unknown registration token for capability " ++ c.name
  | shapeMismatch c => "capability " ++ c.name ++ " is registered with a different type"

/-- Names one registration, so that only it is acted upon. -/
inductive Ticket
  | interface (capability : Capability) (serial : Nat)
  | advisor (capability : Capability) (serial : Nat)
deriving DecidableEq, Repr

def Ticket.capability : Ticket → Capability
  | interface c _ => c
  | advisor c _ => c

/-- Services are known by number, so that several references may share one. -/
abbrev ServiceId := Nat

end Backplane
