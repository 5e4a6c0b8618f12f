import Backplane.Bundle.Depot
import Backplane.Keyed
import Backplane.Module.Behaviour
/-!
# `Backplane.Environment.Basic`: what modules and the host share

The environment holds the registries, the services and whoever keeps them alive, the references in
slots, the tickets by name, the names that lifecycle operations have claimed, and what was noted and
reported.

A registry does not keep a service alive.  That does the dossier of the module that published it, as
long as the module is attached or somebody keeps the dossier, or the host, or a reference in a slot.

| here | in the module system |
| :-- | :-- |
| `Dossier`, `Record` | `ModuleContext`, its `Registration`s |
| `Environment.broker` | the `Broker` that all `ModuleContext`s share |
| `Environment.claims` | the names that are `InFlight` |
| `Party` | whoever calls: a `Module` in a hook, whoever has its `ModuleContext`, or the host |
| `Episode`, `Turn` | nothing: they tell what has happened, and no operation looks at them |
-/
namespace Backplane

/-- A module instance, as the journal knows it. -/
structure Actor where
  /-- The number of the instance, which no other ever has. -/
  member : Nat
  module : String
  watched : Bool
deriving DecidableEq, Repr

inductive JournalEntry
  | created (who : Actor)
  | began (who : Actor) (hook : Hook)
  | did (who : Actor) (hook : Hook) (action : Action) (reply : Reply)
  | dropped (who : Actor)
  | killAsked (tag : String) (kill : Kill)
  | permitAsked (tag : String)

/-- Whether an entry is shown: those of modules that are not watched are not. -/
def JournalEntry.isShown : JournalEntry → Bool
  | created who => who.watched
  | began who _ => who.watched
  | dropped who => who.watched
  | _ => true

/-- What became of a registration. -/
inductive Episode
  /-- It was made, and recorded in the dossier of an instance or in none. -/
  | published (dossier : Option Nat) (ticket : Ticket)
  /-- It was withdrawn on somebody's demand. -/
  | withdrawn (ticket : Ticket)
  /-- It was removed together with all that its instance had registered. -/
  | removed (ticket : Ticket)
deriving DecidableEq, Repr

/-- What befalls an instance. -/
inductive Turn
  /-- It was built, and needs modules of some names. -/
  | built (who : Actor) (needs : List String)
  | began (who : Actor) (hook : Hook)
  /-- A hook came to its end, with a failure or without. -/
  | ended (who : Actor) (hook : Hook) (failure : Option ModuleError)
  | dropped (who : Actor)
deriving DecidableEq, Repr

/-- A registration made through a dossier, and the service it keeps. -/
structure Record where
  ticket : Ticket
  service : ServiceId
deriving DecidableEq, Repr

/-- What a module has published, in order. -/
structure Dossier where
  /-- The number of the instance that it belongs to. -/
  member : Nat
  module : String
  records : List Record := []
  /-- Whether the instance is still there. -/
  attached : Bool := true
  /-- Whether registrations are not reported. -/
  quiet : Bool := false
deriving Repr

inductive SlotHome
  | host
  | shared
  | member (n : Nat)
deriving DecidableEq, Repr

/-- A place for a reference. -/
structure SlotKey where
  home : SlotHome
  name : String
deriving DecidableEq, Repr

/-- What modules and the host share. -/
structure Environment where
  depot : Depot
  broker : Broker := {}
  /-- The services ever published, by number. -/
  services : List Service := []
  dossiers : List Dossier := []
  /-- The dossiers kept beyond a hook, by name. -/
  kept : List (String × Nat) := []
  /-- The services that the host keeps, by the name of their ticket, or the empty name if it has
  none. -/
  hosted : List (String × ServiceId) := []
  slots : List (SlotKey × Hold) := []
  tickets : List (String × Ticket) := []
  /-- What became of registrations, in order.  Nothing is decided by it: it is there to be spoken
  of. -/
  history : List Episode := []
  /-- What befell instances, in order, since the beginning.  Nothing is decided by it either. -/
  turns : List Turn := []
  /-- The modules that a lifecycle operation is working on. -/
  claims : List String := []
  journal : List JournalEntry := []
  log : List LogEvent := []
  /-- Where generators that start at random come from. -/
  entropy : Xorshift := .ofSeed 0
  /-- The number of the next instance. -/
  nextMember : Nat := 0

/-- In what capacity somebody acts. -/
inductive Office
  /-- On the registries themselves, under a name. -/
  | owner (name : String)
  /-- Through the dossier of an instance. -/
  | dossier (member : Nat)
deriving DecidableEq, Repr

/-- Who acts. -/
structure Party where
  /-- Whose slots it uses. -/
  home : SlotHome
  office : Office
deriving DecidableEq, Repr

namespace Party

def host (owner : String) : Party := ⟨.host, .owner owner⟩

/-- The host, through the dossier of an instance. -/
def delegate (member : Nat) : Party := ⟨.host, .dossier member⟩

/-- An instance, through its own dossier. -/
def member (n : Nat) : Party := ⟨.member n, .dossier n⟩

def dossier? (p : Party) : Option Nat :=
  match p.office with
  | .owner _ => none
  | .dossier n => some n

/-- Whether the slots of a name are common to all. -/
def isShared (slot : String) : Bool := slot.toList.take 2 = ['g', ':']

/-- The place that a party means by a slot's name. -/
def slot (p : Party) (name : String) : SlotKey := ⟨if isShared name then .shared else p.home, name⟩

end Party

namespace Environment

/-! ## Notes and reports -/

def note (env : Environment) (e : JournalEntry) : Environment := { env with journal := env.journal ++ [e] }

/-- Notes what befell an instance. -/
def mark (env : Environment) (t : Turn) : Environment := { env with turns := env.turns ++ [t] }

def report (env : Environment) (level : Level) (origin : Origin) (text : String) : Environment :=
  { env with log := env.log ++ [⟨level, origin, text⟩] }

def reportAll (env : Environment) (events : List LogEvent) : Environment :=
  { env with log := env.log ++ events }

/-! ## Dossiers -/

def dossier? (env : Environment) (member : Nat) : Option Dossier :=
  env.dossiers.find? fun d => d.member = member

def dossierOf (env : Environment) (p : Party) : Option Dossier := p.dossier?.bind env.dossier?

def changeDossier (env : Environment) (member : Nat) (f : Dossier → Dossier) : Environment :=
  { env with dossiers := env.dossiers.map fun d => if d.member = member then f d else d }

/-- Whether a dossier is still in somebody's hands. -/
def isHeld (env : Environment) (d : Dossier) : Bool :=
  d.attached || env.kept.any fun k => k.2 = d.member

/-- Whether somebody keeps a service. -/
def alive (env : Environment) (s : ServiceId) : Bool :=
  env.dossiers.any (fun d => env.isHeld d && d.records.any fun r => r.service = s)
    || env.hosted.any (fun h => h.2 = s)
    || env.slots.any fun x => x.2.services.contains s

def ownerName (env : Environment) (p : Party) : String :=
  match p.office with
  | .owner name => name
  | .dossier n => (env.dossier? n).elim "" (·.module)

def isReported (env : Environment) (p : Party) : Bool :=
  !((env.dossierOf p).any (·.quiet))

/-! ## References -/

def lossText (h : Hold) (e : RegistryError) : String :=
  match h with
  | .lease l => "Dropping reference to " ++ l.contract.capability.name ++ ": " ++ e.message
  | .panel p => "Dropping advisor snapshot for " ++ p.contract.capability.name ++ ": " ++ e.message

def lossOrigin : Hold → Origin
  | .lease _ => .interfaces
  | .panel _ => .advisors

/-- Gives a reference back; a failure is only reported. -/
def giveUp (env : Environment) (h : Hold) : Environment :=
  let r := env.broker.giveBack h
  let after := { env with broker := r.2 }
  match r.1 with
  | .ok () => after
  | .error e => after.report .warn (lossOrigin h) (lossText h e)

def giveUpAll (env : Environment) (hs : List Hold) : Environment := hs.foldl giveUp env

def held? (env : Environment) (key : SlotKey) : Option Hold := Keyed.get? env.slots key

/-- Puts a reference into a slot; what was in it is given back. -/
def fill (env : Environment) (key : SlotKey) (h : Hold) : Environment :=
  let after := { env with slots := Keyed.put env.slots key h }
  match env.held? key with
  | some old => after.giveUp old
  | none => after

/-- Takes what a slot holds out of it. -/
def vacate (env : Environment) (key : SlotKey) : Environment :=
  { env with slots := Keyed.erase env.slots key }

/-- Gives back what an instance holds in its slots. -/
def emptySlots (env : Environment) (member : Nat) : Environment :=
  let isOwn (x : SlotKey × Hold) : Bool := x.1.home = .member member
  let left : Environment := { env with slots := env.slots.filter fun x => !isOwn x }
  left.giveUpAll ((env.slots.filter isOwn).map (·.2))

/-- Puts a new reference where it belongs: into a slot, or straight back. -/
def place (env : Environment) (p : Party) (slot : Option String) (h : Hold) : Environment :=
  match slot with
  | some name => env.fill (p.slot name) h
  | none => env.giveUp h

/-! ## Services -/

/-- The number that a service yields. -/
def numberOf (env : Environment) (s : ServiceId) : Int := env.services[s]?.elim 0 Service.number

def view (env : Environment) : Hold → Reply
  | .lease l => .leased l.contract.capability l.owner (env.numberOf l.service)
  | .panel p =>
    .seated p.contract.capability (p.seats.map fun s => ⟨s.priority, s.owner, env.numberOf s.service⟩)

def describeHold (h : Hold) : String :=
  let capability := "CapabilityId(" ++ quoted h.capability.name ++ ")"
  match h with
  | .lease l => withFields "InterfaceRef" [("capability", capability), ("owner", quoted l.owner)]
  | .panel p =>
    withFields "AdvisorSnapshot" [("capability", capability), ("advisors", toString p.seats.length)]

/-! ## Diagnostics -/

def describeDossier (d : Dossier) : String :=
  withFields "ModuleContext" [("module", quoted d.module), ("registrations", toString d.records.length)]

def describeLifecycle (env : Environment) : String :=
  let interfaces := withFields "InterfaceRegistry" [("registrations", toString env.broker.interfaces.size)]
  let advisors := withFields "AdvisorRegistry" [("capabilities", toString env.broker.advisors.size)]
  withFields "ModuleLoader"
    [("broker", withFields "Broker" [("interfaces", interfaces), ("advisors", advisors)]),
      ("in_flight", toString env.claims.length)]

def describe (env : Environment) : List String := [env.describeLifecycle, env.depot.describe]

end Environment

end Backplane
