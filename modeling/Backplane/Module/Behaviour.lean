import Backplane.Log
import Backplane.Module.Call
import Backplane.Registry.Broker
import Backplane.Registry.Service
/-!
# `Backplane.Module.Behaviour`: what modules do in their hooks

A hook is a tree: at each step it performs an action and goes on in a way that may depend on the
reply, until it ends.  It acts through the dossier of its module, but may get hold of another
dossier or of the registries themselves.  Nothing else is assumed of it, so a statement about every
behaviour is one about every module.

The hooks model those of a `Module`: `load`, `post_load`, `pre_unload` and `unload`.
-/
namespace Backplane

/-- What a module can do, and the host too. -/
inductive Action
  /-- Publishes a service as the only one of its capability; its ticket is kept under a name. -/
  | publishInterface (service : Service) (ticket : Option String)
  /-- Publishes a service as one of several. -/
  | publishAdvisor (service : Service) (priority : Int) (ticket : Option String)
  | withdraw (ticket : String)
  /-- Looks up an exclusive service; without a slot the lease is given back at once. -/
  | lease (contract : Contract) (slot : Option String)
  /-- Looks up the advisors of a contract; without a slot the panel is given back at once. -/
  | panel (contract : Contract) (slot : Option String)
  | inspect (slot : String)
  | release (slot : String)
  /-- Empties a slot, whatever comes of it. -/
  | drop (slot : String)
  | outstanding (ticket : String)
  | standing (capability : Capability)
  | award (kill : Kill)
  | banner
  | filter (text : String)
  | draw (requests : List Xorshift.Draw)
  /-- The tickets of what the module publishes. -/
  | registrations
  | moduleName
  | describe
  /-- Lets the module's dossier outlive the hook, under a name or the module's own. -/
  | keepDossier (name : Option String)
  /-- A generator that starts at random. -/
  | entropy
  | report (event : LogEvent)
  | call (request : LifecycleCall)

/-- What a module can do otherwise than through its own dossier. -/
inductive Deed
  /-- Acts through a dossier that was kept under a name. -/
  | through (dossier : String) (action : Action)
  /-- Acts on the registries themselves, under a name of its choice. -/
  | direct (owner : String) (action : Action)
  /-- Lets go of a service that is kept under the name of its ticket. -/
  | dropService (ticket : String)
  /-- Lets go of a dossier that was kept. -/
  | dropDossier (name : String)

/-- One advisor on a panel: its priority, its owner and the number it yields. -/
structure AdvisorView where
  priority : Int
  owner : String
  number : Int
deriving DecidableEq, Repr

/-- What is known of a capability. -/
structure Standing where
  contains : Bool
  owner : Option String
  outstanding : Option Nat
  advisors : Nat
deriving DecidableEq, Repr

/-- What an action yields. -/
inductive Reply
  | done
  | failed (error : ModuleError)
  | published (capability : Capability)
  | leased (capability : Capability) (owner : String) (number : Int)
  | seated (capability : Capability) (advisors : List AdvisorView)
  /-- The slot holds nothing. -/
  | empty
  | dropped
  /-- No ticket was kept under the name. -/
  | noTicket
  /-- Whoever asks has no dossier. -/
  | noDossier
  | count (n : Option Nat)
  | standing (s : Standing)
  | award (a : Award)
  | flag (b : Option Bool)
  | filtered (masked : Bool) (text : String)
  | drawn (results : List Xorshift.Drawn)
  | tickets (ts : List Ticket)
  | text (s : Option String)
  | generator (g : Xorshift)
  | called (reply : LifecycleReply)

def Reply.failure? : Reply → Option ModuleError
  | failed e => some e
  | _ => none

inductive Ending
  | ok
  | failed (error : ModuleError)
  /-- The hook breaks off; it may say why. -/
  | panicked (reason : Option String)
deriving DecidableEq, Repr

def Ending.failure? : Ending → Option ModuleError
  | ok => none
  | failed e => some e
  | panicked reason => some (.panicked (reason.getD "unknown panic payload"))

inductive Behaviour
  | finish (ending : Ending)
  /-- Notes in the journal that an action had a reply. -/
  | mention (action : Action) (reply : Reply) (next : Behaviour)
  | perform (action : Action) (next : Reply → Behaviour)
  | carryOut (deed : Deed) (next : Reply → Behaviour)

def Behaviour.idle : Behaviour := .finish .ok

/-- Ends as the reply says. -/
def Behaviour.settle (r : Reply) : Behaviour :=
  match r.failure? with
  | some e => .finish (.failed e)
  | none => .finish .ok

inductive Hook
  | load
  | postLoad
  | preUnload
  | unload
deriving DecidableEq, Repr

structure Hooks where
  load : Behaviour := .idle
  postLoad : Behaviour := .idle
  preUnload : Behaviour := .idle
  unload : Behaviour := .idle

def Hooks.of (h : Hooks) : Hook → Behaviour
  | .load => h.load
  | .postLoad => h.postLoad
  | .preUnload => h.preUnload
  | .unload => h.unload

end Backplane
