/-!
# `Backplane.Contract.Login`: one outcome for every login attempt

An attempt has two halves: the authenticator's, which reports an outcome at most once, and the
caller's, which waits for it.  An authenticator that walks away without an answer is reported to the
caller as `LoginFailure.abandoned`, so a caller that keeps waiting always hears exactly one outcome.

`LoginCompletion` models the `AuthCompletion`; the caller's half, at the other end of a
`LoginChannel`, is the `AuthPending`, and outcomes are `AuthOutcome`s.
-/
namespace Backplane

structure KnownPlayer where
  name : String
  squad : Option String
  demo : Bool
deriving DecidableEq, Repr

inductive LoginFailure
  | badPassword
  | unknownPlayer
  | banned (reason : String)
  | unavailable (reason : String)
  /-- The authenticator gave no answer. -/
  | abandoned
deriving DecidableEq, Repr

def LoginFailure.message : LoginFailure → String
  | badPassword => "bad password"
  | unknownPlayer => "unknown player"
  | banned reason => "player is banned: " ++ reason
  | unavailable reason => "authentication unavailable: " ++ reason
  | abandoned => "authentication abandoned"

inductive LoginOutcome
  | authenticated (player : KnownPlayer)
  | refused (failure : LoginFailure)
deriving DecidableEq, Repr

def LoginOutcome.isAuthenticated : LoginOutcome → Bool
  | authenticated _ => true
  | refused _ => false

/-! ## The channel -/

/-- A channel that carries one outcome from one end to the other. -/
structure LoginChannel where
  /-- What has been sent, and not been received. -/
  sent : Option LoginOutcome := none
  /-- Whether the sending end is there.  Sending uses it up. -/
  sendable : Bool := true
  /-- Whether the receiving end is there.  Receiving uses it up. -/
  awaited : Bool := true
deriving DecidableEq, Repr

/-- What the receiving end yields. -/
inductive Receipt
  | pending
  | received (outcome : LoginOutcome)
  /-- The sending end is gone, and nothing was sent. -/
  | closed
deriving DecidableEq, Repr

namespace LoginChannel

/-- Sends; whether there was a receiving end. -/
def send (c : LoginChannel) (outcome : LoginOutcome) : Bool × LoginChannel :=
  if c.awaited then (true, { c with sent := some outcome, sendable := false })
  else (false, { c with sendable := false })

/-- Whether the receiving end is gone. -/
def isClosed (c : LoginChannel) : Bool := !c.awaited

def receive (c : LoginChannel) : Receipt × LoginChannel :=
  match c.sent with
  | some outcome => (.received outcome, { c with sent := none, awaited := false })
  | none => if c.sendable then (.pending, c) else (.closed, { c with awaited := false })

/-- Drops the receiving end, with what has not been received. -/
def abandon (c : LoginChannel) : LoginChannel := { c with sent := none, awaited := false }

end LoginChannel

/-! ## The two halves -/

/-- The authenticator's half of an attempt. -/
structure LoginCompletion where
  /-- Whether it has the sending end of the channel. -/
  armed : Bool := true
deriving DecidableEq, Repr

namespace LoginCompletion

/-- Takes the sending end out; whether it was there. -/
def take (h : LoginCompletion) : Bool × LoginCompletion := (h.armed, { armed := false })

/-- A half that is dropped with its sending end sends that it was abandoned. -/
def drop (h : LoginCompletion) (c : LoginChannel) : LoginChannel :=
  if h.take.1 then (c.send (.refused .abandoned)).2 else c

/-- Reports the outcome, and drops the half.  Answers whether anybody was waiting. -/
def complete (h : LoginCompletion) (c : LoginChannel) (outcome : LoginOutcome) :
    Bool × LoginChannel :=
  let taken := h.take
  let told := if taken.1 then c.send outcome else (false, c)
  (told.1, taken.2.drop told.2)

/-- Whether the caller has lost interest. -/
def isAbandonedByCaller (h : LoginCompletion) (c : LoginChannel) : Bool :=
  if h.armed then c.isClosed else true

end LoginCompletion

/-- What a caller sees when it looks. -/
inductive Glance
  | pending
  | settled (outcome : LoginOutcome)
deriving DecidableEq, Repr

/-- What the caller makes of what the channel yields. -/
def Glance.ofReceipt : Receipt → Glance
  | .pending => .pending
  | .received outcome => .settled outcome
  | .closed => .settled (.refused .abandoned)

/-- An attempt: its channel, whose receiving end the caller has, and the authenticator's half, until
it is used up or dropped. -/
structure LoginAttempt where
  channel : LoginChannel := {}
  completion : Option LoginCompletion := some {}
deriving DecidableEq, Repr

namespace LoginAttempt

/-- The authenticator reports the outcome, which uses its half up; `none` if it has none. -/
def complete (a : LoginAttempt) (outcome : LoginOutcome) : Option Bool × LoginAttempt :=
  match a.completion with
  | some h =>
    let r := h.complete a.channel outcome
    (some r.1, { channel := r.2, completion := none })
  | none => (none, a)

/-- The authenticator walks away; whether it had its half still. -/
def dropAnswer (a : LoginAttempt) : Bool × LoginAttempt :=
  match a.completion with
  | some h => (true, { channel := h.drop a.channel, completion := none })
  | none => (false, a)

/-- The caller walks away; whether it was still waiting. -/
def dropCaller (a : LoginAttempt) : Bool × LoginAttempt :=
  if a.channel.awaited then (true, { a with channel := a.channel.abandon }) else (false, a)

/-- Whether the caller has lost interest; `none` once the authenticator's half is gone. -/
def isAbandonedByCaller (a : LoginAttempt) : Option Bool :=
  a.completion.map fun h => h.isAbandonedByCaller a.channel

/-- The caller looks for the outcome; seeing one ends its wait.  `none` if it does not wait. -/
def poll (a : LoginAttempt) : Option Glance × LoginAttempt :=
  if a.channel.awaited then
    let r := a.channel.receive
    (some (.ofReceipt r.1), { a with channel := r.2 })
  else (none, a)

end LoginAttempt

/-! ## Several attempts at once -/

inductive LoginStep
  | start
  | complete (attempt : Nat) (outcome : LoginOutcome)
  | dropAnswer (attempt : Nat)
  | dropCaller (attempt : Nat)
  | isAbandonedByCaller (attempt : Nat)
  | poll (attempt : Nat)
deriving Repr

inductive LoginView
  | started (attempt : Nat)
  | flag (value : Option Bool)
  | dropped (done : Bool)
  | glance (seen : Option Glance)
deriving DecidableEq, Repr

/-- The attempts made so far, by number. -/
abbrev LoginDesk := List LoginAttempt

namespace LoginDesk

/-- The view of the `i`-th attempt under `f`, and the desk with that attempt replaced. -/
def update {α : Type} (desk : LoginDesk) (i : Nat) (missing : α)
    (f : LoginAttempt → α × LoginAttempt) : α × LoginDesk :=
  match desk[i]? with
  | some a => ((f a).1, desk.set i (f a).2)
  | none => (missing, desk)

def step (desk : LoginDesk) : LoginStep → LoginView × LoginDesk
  | .start => (.started desk.length, desk ++ [{}])
  | .complete i outcome =>
    let r := desk.update i none fun a => a.complete outcome
    (.flag r.1, r.2)
  | .dropAnswer i =>
    let r := desk.update i false LoginAttempt.dropAnswer
    (.dropped r.1, r.2)
  | .dropCaller i =>
    let r := desk.update i false LoginAttempt.dropCaller
    (.dropped r.1, r.2)
  | .isAbandonedByCaller i =>
    let r := desk.update i none fun a => (a.isAbandonedByCaller, a)
    (.flag r.1, r.2)
  | .poll i =>
    let r := desk.update i none LoginAttempt.poll
    (.glance r.1, r.2)

def run : List LoginStep → LoginDesk → List LoginView × LoginDesk
  | [], desk => ([], desk)
  | s :: rest, desk =>
    let one := desk.step s
    let more := run rest one.2
    (one.1 :: more.1, more.2)

end LoginDesk

end Backplane
