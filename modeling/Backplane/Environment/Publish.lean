import Backplane.Environment.Basic
/-!
# `Backplane.Environment.Publish`: registering, withdrawing and looking up

What a module publishes goes into its dossier, in order; what the host publishes it keeps under the
name of the ticket, and what has no name under the empty one.  A withdrawal goes by the ticket
alone, and takes the record out of the dossier of whoever asks.

These model the operations of a `ModuleContext`: `register_interface` and `register_advisor`,
`unregister_interface` and `unregister_advisor`, `get_interface` and `get_advisors`.
-/
namespace Backplane.Environment

/-- Notes what became of a registration. -/
def remember (env : Environment) (e : Episode) : Environment := { env with history := env.history ++ [e] }

/-- Keeps a service for a party: in its dossier, or else under the name of the ticket. -/
def keep (env : Environment) (p : Party) (name : Option String) (t : Ticket) (s : ServiceId) :
    Environment :=
  match p.dossier? with
  | some n => env.changeDossier n fun d => { d with records := d.records ++ [⟨t, s⟩] }
  | none => { env with hosted := Keyed.put env.hosted (name.getD "") s }

/-- Keeps a ticket under a name. -/
def nameTicket (env : Environment) (name : Option String) (t : Ticket) : Environment :=
  match name with
  | some k => { env with tickets := Keyed.put env.tickets k t }
  | none => env

/-- Keeps what a party has published. -/
def retain (env : Environment) (p : Party) (name : Option String) (t : Ticket) (s : ServiceId) :
    Environment :=
  ((env.keep p name t s).nameTicket name t).remember (.published ((env.dossierOf p).map (·.member)) t)

/-- The environment with one service more; its number is the number of services before. -/
def addService (env : Environment) (s : Service) : Environment :=
  { env with services := env.services ++ [s] }

/-- Reports a registration, unless the party's are not reported. -/
def announce (env : Environment) (p : Party) (origin : Origin) (text : String) : Environment :=
  if env.isReported p then env.report .debug origin text else env

def publishInterface (env : Environment) (p : Party) (s : Service) (name : Option String) :
    Reply × Environment :=
  let id := env.services.length
  let owner := env.ownerName p
  match env.broker.interfaces.register s.contract owner id with
  | .error e => (.failed (.registry e), env)
  | .ok (serial, interfaces) =>
    let c := s.contract.capability
    let after := { env.addService s with broker := { env.broker with interfaces } }
    (.published c,
      (after.announce p .interfaces ("Module " ++ owner ++ " registered interface " ++ c.name)).retain
        p name (.interface c serial) id)

def publishAdvisor (env : Environment) (p : Party) (s : Service) (priority : Int)
    (name : Option String) : Reply × Environment :=
  let id := env.services.length
  let owner := env.ownerName p
  let r := env.broker.advisors.register s.contract owner priority id
  let c := s.contract.capability
  let after := { env.addService s with broker := { env.broker with advisors := r.2 } }
  (.published c,
    (after.announce p .advisors
      ("Module " ++ owner ++ " registered advisor " ++ c.name ++ " with priority " ++ toString priority)).retain
        p name (.advisor c r.1) id)

def withdrawalText (owner : String) : Ticket → String
  | .interface c _ => "Module " ++ owner ++ " unregistered interface " ++ c.name
  | .advisor c _ => "Module " ++ owner ++ " unregistered advisor " ++ c.name

def ticketOrigin : Ticket → Origin
  | .interface _ _ => .interfaces
  | .advisor _ _ => .advisors

/-- Removes the registration of a ticket from its registry. -/
def withdrawTicket (env : Environment) (t : Ticket) : Except RegistryError Environment :=
  (env.broker.withdraw t).map fun b =>
    { env with broker := b }.report .debug (ticketOrigin t)
      (withdrawalText ((env.broker.ownerOf t).getD "") t)

/-- Takes the record of a ticket out of a party's dossier. -/
def forget (env : Environment) (p : Party) (t : Ticket) : Environment :=
  match p.dossier? with
  | some n => env.changeDossier n fun d => { d with records := d.records.filter fun r => r.ticket ≠ t }
  | none => env

def withdraw (env : Environment) (p : Party) (name : String) : Reply × Environment :=
  match Keyed.get? env.tickets name with
  | none => (.noTicket, env)
  | some t =>
    match env.withdrawTicket t with
    | .error e => (.failed (.registry e), env)
    | .ok after => (.done, (after.forget p t).remember (.withdrawn t))

/-- Looks up an exclusive service. -/
def lease (env : Environment) (p : Party) (k : Contract) (slot : Option String) : Reply × Environment :=
  match env.broker.lease env.alive k with
  | .error e => (.failed (.registry e), env)
  | .ok (l, b) => (env.view (.lease l), { env with broker := b }.place p slot (.lease l))

/-- Looks up the advisors of a contract. -/
def panel (env : Environment) (p : Party) (k : Contract) (slot : Option String) : Reply × Environment :=
  let r := env.broker.panel env.alive k
  match r.1 with
  | .error e => (.failed (.registry e), { env with broker := r.2 })
  | .ok x => (env.view (.panel x), { env with broker := r.2 }.place p slot (.panel x))

def inspect (env : Environment) (p : Party) (slot : String) : Reply :=
  match env.held? (p.slot slot) with
  | some h => env.view h
  | none => .empty

def release (env : Environment) (p : Party) (slot : String) : Reply × Environment :=
  match env.held? (p.slot slot) with
  | none => (.empty, env)
  | some h =>
    let r := env.broker.giveBack h
    let after := { env with broker := r.2 }.vacate (p.slot slot)
    match r.1 with
    | .ok () => (.done, after)
    | .error e => (.failed (.registry e), after)

def drop (env : Environment) (p : Party) (slot : String) : Reply × Environment :=
  match env.held? (p.slot slot) with
  | none => (.empty, env)
  | some h => (.dropped, (env.vacate (p.slot slot)).giveUp h)

/-- What is known of a capability. -/
def standing (env : Environment) (c : Capability) : Standing where
  contains := env.broker.interfaces.contains c
  owner := env.broker.interfaces.ownerOf c
  outstanding := env.broker.interfaces.outstandingOf c
  advisors := env.broker.advisors.count c

end Backplane.Environment
