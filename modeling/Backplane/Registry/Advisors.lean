import Backplane.Keyed
import Backplane.Registry.Book
/-!
# `Backplane.Registry.Advisors`: capabilities with several providers

Any number of services may be published under one capability, each with a priority.  Each capability
that has advisors has a list of them, in consultation order: ascending priority, equal priorities in
the order of registration.  When the last of them goes, so does the list.  A lookup yields a panel,
the registrations it found in that order, and takes a reference on each of them; later changes do not
touch a panel.

| here | in the module system |
| :-- | :-- |
| `Advisors`, `Registration Int` | `AdvisorRegistry`, `AdvisorEntry` |
| `Advisors.lists`, `Advisors.erase` | `lists`, and how `unregister` and `force_remove` take an entry out of it |
| `Panel`, `Seat` | `AdvisorSnapshot`, `AdvisorItem` |
| `Advisors.panel`, `Advisors.giveBackSeats` | `get_advisors`, `release` |
-/
namespace Backplane

/-- The advisory registrations; a registration's rank is its priority.  One that is removed while
references are out moves to `departed`. -/
structure Advisors where
  /-- The list of each capability that has advisors. -/
  lists : List (Capability × List (Registration Int)) := []
  departed : List (Registration Int) := []
  nextSerial : Nat := 1
deriving Repr

/-- A registration as a panel shows it. -/
structure Seat where
  serial : Nat
  priority : Int
  owner : String
  service : ServiceId
deriving DecidableEq, Repr

/-- The advisors of one contract at one moment, in consultation order. -/
structure Panel where
  contract : Contract
  seats : List Seat
deriving DecidableEq, Repr

def Registration.seat (e : Registration Int) : Seat := ⟨e.serial, e.rank, e.owner, e.service⟩

namespace Advisors

/-- The advisors of a capability, in consultation order. -/
def listOf (r : Advisors) (c : Capability) : List (Registration Int) :=
  (Keyed.get? r.lists c).getD []

/-- Replaces the list of a capability that has one. -/
def setList (r : Advisors) (c : Capability) (es : List (Registration Int)) : Advisors :=
  { r with lists := Keyed.modify r.lists c fun _ => es }

/-- The registration that a ticket names, if it is still present. -/
def present? (r : Advisors) (c : Capability) (serial : Nat) : Option (Registration Int) :=
  (r.listOf c).find? fun e => e.serial = serial

/-! ## Registering -/

/-- Puts a registration behind all of its own or a lower priority. -/
def insert (e : Registration Int) (entries : List (Registration Int)) : List (Registration Int) :=
  entries.takeWhile (fun x => x.rank ≤ e.rank) ++ e :: entries.dropWhile (fun x => x.rank ≤ e.rank)

/-- Publishes a service; answers the serial number of the registration.  A capability without
advisors gets a list. -/
def register (r : Advisors) (k : Contract) (owner : String) (priority : Int) (service : ServiceId) :
    Nat × Advisors :=
  let c := k.capability
  let e : Registration Int := { rank := priority, serial := r.nextSerial, contract := k, owner, service }
  let lists :=
    if Keyed.has r.lists c then Keyed.modify r.lists c (insert e) else r.lists ++ [(c, insert e [])]
  (r.nextSerial, { r with lists, nextSerial := r.nextSerial + 1 })

/-! ## Removing -/

/-- Takes a registration out of the list of its capability; a list that would be empty is given up. -/
def erase (r : Advisors) (c : Capability) (serial : Nat) : Advisors :=
  let remaining := (r.listOf c).filter fun e => e.serial ≠ serial
  if remaining.isEmpty then { r with lists := Keyed.erase r.lists c } else r.setList c remaining

/-- Removes a registration that nobody refers to. -/
def unregister (r : Advisors) (c : Capability) (serial : Nat) : Except RegistryError Advisors :=
  match r.present? c serial with
  | none => .error (.unknownTicket c)
  | some e =>
    match e.usage.retire with
    | .error refs => .error (.busy c refs)
    | .ok _ => .ok (r.erase c serial)

/-- Removes a registration whatever its count; answers how many references were still out. -/
def forceRemove (r : Advisors) (c : Capability) (serial : Nat) : Option Nat × Advisors :=
  match r.present? c serial with
  | none => (none, r)
  | some e =>
    let rest := r.erase c serial
    match e.usage.outstanding with
    | 0 => (some 0, rest)
    | n + 1 => (some (n + 1), { rest with departed := r.departed ++ [e] })

/-! ## Retirement -/

/-- Replaces the usage of one registration. -/
def setUsage (r : Advisors) (c : Capability) (serial : Nat) (u : Usage) : Advisors :=
  r.setList c ((r.listOf c).map fun e => if e.serial = serial then { e with usage := u } else e)

/-- Hides a registration from lookups, if nobody refers to it. -/
def retire (r : Advisors) (c : Capability) (serial : Nat) : Except RegistryError Advisors :=
  match r.present? c serial with
  | none => .error (.unknownTicket c)
  | some e =>
    match e.usage.retire with
    | .error refs => .error (.busy c refs)
    | .ok u => .ok (r.setUsage c serial u)

/-- Takes a retirement back. -/
def restore (r : Advisors) (c : Capability) (serial : Nat) : Advisors :=
  match r.present? c serial with
  | none => r
  | some e => r.setUsage c serial e.usage.restore

/-! ## Panels -/

/-- A walk over the list of a capability in search of advisors. -/
structure Search where
  /-- The seats taken. -/
  seats : List Seat
  /-- Whether the walk stopped at a registration of another shape. -/
  mismatch : Bool
  /-- The registrations afterwards, with a reference more on each seat taken. -/
  entries : List (Registration Int)

/-- How a search treats a registration. -/
inductive Verdict
  | pass
  | stop
  | seat (usage : Usage)

/-- A registration of another shape stops the search; those of dead services and retired ones are
passed by; any other gets a seat, and a reference more. -/
def verdict (alive : ServiceId → Bool) (k : Contract) (e : Registration Int) : Verdict :=
  if e.contract.shape ≠ k.shape then .stop
  else if !alive e.service then .pass
  else
    match e.usage.acquire with
    | none => .pass
    | some u => .seat u

/-- Takes the seats of a panel from registrations in order. -/
def search (alive : ServiceId → Bool) (k : Contract) : List (Registration Int) → Search
  | [] => ⟨[], false, []⟩
  | e :: rest =>
    match verdict alive k e with
    | .stop => ⟨[], true, e :: rest⟩
    | .pass =>
      let s := search alive k rest
      ⟨s.seats, s.mismatch, e :: s.entries⟩
    | .seat u =>
      let s := search alive k rest
      ⟨e.seat :: s.seats, s.mismatch, { e with usage := u } :: s.entries⟩

/-- Gives one reference back, to a present or a departed registration. -/
def giveBack (r : Advisors) (c : Capability) (serial : Nat) : Option Advisors :=
  match Book.giveBackIn serial (r.listOf c) with
  | some es => some (r.setList c es)
  | none => (Book.giveBackIn serial r.departed).map fun departed => { r with departed }

/-- Gives seats back one after another; the last failure is the answer. -/
def giveBackSeats (c : Capability) : List Seat → Advisors → Except RegistryError Unit × Advisors
  | [], r => (.ok (), r)
  | s :: rest, r =>
    match r.giveBack c s.serial with
    | some r' => giveBackSeats c rest r'
    -- the other seats are given back all the same
    | none =>
      let more := giveBackSeats c rest r
      (match more.1 with
        | .ok () => .error (.underflow c)
        | .error e => .error e, more.2)

/-- Looks the advisors of a contract up.  If one of them has another shape the seats already taken
are given back. -/
def panel (alive : ServiceId → Bool) (r : Advisors) (k : Contract) :
    Except RegistryError Panel × Advisors :=
  let c := k.capability
  let s := search alive k (r.listOf c)
  let taken := r.setList c s.entries
  if s.mismatch then (.error (.shapeMismatch c), (giveBackSeats c s.seats taken).2)
  else (.ok ⟨k, s.seats⟩, taken)

/-! ## Observations -/

def outstanding (r : Advisors) (c : Capability) (serial : Nat) : Option Nat :=
  (r.present? c serial).map (·.usage.outstanding)

def count (r : Advisors) (c : Capability) : Nat := (r.listOf c).length

/-- The number of capabilities with an advisor. -/
def size (r : Advisors) : Nat := r.lists.length

end Advisors

end Backplane
