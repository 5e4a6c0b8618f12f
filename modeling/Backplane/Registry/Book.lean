import Backplane.Registry.Capability
import Backplane.Registry.Usage
/-!
# `Backplane.Registry.Book`: registrations in one list

A registration is named by its capability and its serial number, so a ticket that has gone stale
names nothing, whoever holds the capability since.  While references are out a registration can
neither be withdrawn nor retired; one that is removed by force all the same moves to `departed`,
where giving a reference back still finds its count.

A `Registration` models an `InterfaceEntry` or an `AdvisorEntry`; a book is the `InterfaceRegistry`,
or all lists of the `AdvisorRegistry` in one.
-/
namespace Backplane

/-- One registration.  Advisors have a priority as their rank, exclusive registrations have none. -/
structure Registration (ρ : Type) where
  rank : ρ
  serial : Nat
  contract : Contract
  owner : String
  service : ServiceId
  usage : Usage := .fresh
deriving DecidableEq, Repr

/-- Whether a capability and a serial number name a registration. -/
def Registration.isNamed {ρ : Type} (e : Registration ρ) (c : Capability) (serial : Nat) : Bool :=
  e.contract.capability = c && e.serial = serial

/-- Registrations in one list, whatever their capabilities. -/
structure Book (ρ : Type) where
  entries : List (Registration ρ) := []
  departed : List (Registration ρ) := []
  nextSerial : Nat := 1
deriving Repr

namespace Book

variable {ρ : Type}

/-- The registration that a ticket names, if it is still present. -/
def present? (r : Book ρ) (c : Capability) (serial : Nat) : Option (Registration ρ) :=
  r.entries.find? (·.isNamed c serial)

/-- Replaces the usage of one registration. -/
def setUsage (r : Book ρ) (serial : Nat) (u : Usage) : Book ρ :=
  { r with entries := r.entries.map fun e => if e.serial = serial then { e with usage := u } else e }

def erase (r : Book ρ) (serial : Nat) : Book ρ :=
  { r with entries := r.entries.filter fun e => e.serial ≠ serial }

/-- Removes a registration that nobody refers to. -/
def unregister (r : Book ρ) (c : Capability) (serial : Nat) : Except RegistryError (Book ρ) :=
  match r.present? c serial with
  | none => .error (.unknownTicket c)
  | some e =>
    match e.usage.retire with
    | .error refs => .error (.busy c refs)
    | .ok _ => .ok (r.erase serial)

/-! ## References -/

/-- Gives one reference back in a list of registrations; `none` if no count can go down. -/
def giveBackIn (serial : Nat) : List (Registration ρ) → Option (List (Registration ρ))
  | [] => none
  | e :: rest =>
    if e.serial = serial then e.usage.release.map fun u => { e with usage := u } :: rest
    else (giveBackIn serial rest).map (e :: ·)

/-- Gives one reference back, to a present or a departed registration. -/
def giveBack (r : Book ρ) (serial : Nat) : Option (Book ρ) :=
  match giveBackIn serial r.entries with
  | some entries => some { r with entries }
  | none => (giveBackIn serial r.departed).map fun departed => { r with departed }

/-! ## Retirement -/

/-- Hides a registration from lookups, if nobody refers to it. -/
def retire (r : Book ρ) (c : Capability) (serial : Nat) : Except RegistryError (Book ρ) :=
  match r.present? c serial with
  | none => .error (.unknownTicket c)
  | some e =>
    match e.usage.retire with
    | .error refs => .error (.busy c refs)
    | .ok u => .ok (r.setUsage serial u)

/-- Takes a retirement back. -/
def restore (r : Book ρ) (c : Capability) (serial : Nat) : Book ρ :=
  match r.present? c serial with
  | none => r
  | some e => r.setUsage serial e.usage.restore

/-- Removes a registration whatever its count; answers how many references were still out. -/
def forceRemove (r : Book ρ) (c : Capability) (serial : Nat) : Option Nat × Book ρ :=
  match r.present? c serial with
  | none => (none, r)
  | some e =>
    let rest := r.erase serial
    match e.usage.outstanding with
    | 0 => (some 0, rest)
    -- kept for the sake of its count, which goes down as the references are given back
    | n + 1 => (some (n + 1), { rest with departed := r.departed ++ [e] })

def outstanding (r : Book ρ) (c : Capability) (serial : Nat) : Option Nat :=
  (r.present? c serial).map (·.usage.outstanding)

end Book

end Backplane
