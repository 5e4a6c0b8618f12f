import Backplane.Environment.Publish
/-!
# `Backplane.Environment.Consult`: using what is published

Whoever consults a service takes a reference for the time of the consultation only, so consulting
leaves every count as it was.

`Environment.award` models `award_kill`, and `Environment.banner` models `banner_allowed`.
-/
namespace Backplane.Environment

/-! ## Exclusive services -/

def generatorOf (env : Environment) (s : ServiceId) : Xorshift :=
  match env.services[s]? with
  | some (.generator g) => g
  | _ => .ofSeed 0

/-- Draws from the published generator. -/
def withGenerator {α : Type} (env : Environment) (f : Xorshift → α × Xorshift) :
    Except RegistryError (α × Environment) :=
  (env.broker.lease env.alive .generator).map fun r =>
    let drawn := f (env.generatorOf r.1.service)
    (drawn.1,
      { env with
        broker := r.2
        services := env.services.set r.1.service (.generator drawn.2) }.giveUp (.lease r.1))

/-- Serves requests for random numbers. -/
def draw (env : Environment) (requests : List Xorshift.Draw) : Reply × Environment :=
  match env.withGenerator (Xorshift.drawAll requests) with
  | .ok (results, after) => (.drawn results, after)
  | .error e => (.failed (.registry e), env)

def wordFilterOf (env : Environment) (s : ServiceId) : WordFilter :=
  match env.services[s]? with
  | some (.wordFilter f) => f
  | _ => ⟨[]⟩

def filter (env : Environment) (text : String) : Reply × Environment :=
  match env.broker.lease env.alive .wordFilter with
  | .error e => (.failed (.registry e), env)
  | .ok (l, b) =>
    let r := (env.wordFilterOf l.service).applyTo text
    (.filtered r.1 r.2, { env with broker := b }.giveUp (.lease l))

/-! ## Advisors -/

/-- The award of one scorer.  A lottery without a generator awards nothing. -/
def score (env : Environment) (k : Kill) : Option Service → Award × Environment
  | some (.scorer .bounty) => (bountyAward k, env)
  | some (.scorer (.perFlag points)) => (flagAward points k, env)
  | some (.scorer (.fixed award tag)) => (award, env.note (.killAsked tag k))
  | some (.scorer (.lottery chance prizes)) =>
    match env.withGenerator (prizeAward chance prizes) with
    | .ok r => r
    | .error _ => ({}, env)
  | _ => ({}, env)

/-- The awards of a panel, in order. -/
def scores (k : Kill) : List Seat → Environment → List Award × Environment
  | [], env => ([], env)
  | s :: rest, env =>
    let one := env.score k env.services[s.service]?
    let more := scores k rest one.2
    (one.1 :: more.1, more.2)

/-- The total award for a kill. -/
def award (env : Environment) (k : Kill) : Reply × Environment :=
  let r := env.broker.panel env.alive .killPoints
  let taken := { env with broker := r.2 }
  match r.1 with
  | .error e => (.failed (.registry e), taken)
  | .ok p =>
    let all := scores k p.seats taken
    (.award (.total all.1), all.2.giveUp (.panel p))

/-- What one advisor says about a banner. -/
def permit (env : Environment) : Option Service → Bool × Environment
  | some (.permit allow tag) => (allow, env.note (.permitAsked tag))
  | _ => (true, env)

/-- Whether no advisor refuses; after a refusal nobody else is asked. -/
def permits : List Seat → Environment → Bool × Environment
  | [], env => (true, env)
  | s :: rest, env =>
    let one := env.permit env.services[s.service]?
    if one.1 then permits rest one.2 else (false, one.2)

/-- Whether a banner may be shown. -/
def banner (env : Environment) : Reply × Environment :=
  let r := env.broker.panel env.alive .bannerPermit
  let taken := { env with broker := r.2 }
  match r.1 with
  | .error e => (.failed (.registry e), taken)
  | .ok p =>
    let all := permits p.seats taken
    (.flag (some all.1), all.2.giveUp (.panel p))

end Backplane.Environment
