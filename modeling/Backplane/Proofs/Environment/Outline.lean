import Backplane.Environment.Perform
import Backplane.Proofs.Bundle.Outline
/-!
# `Backplane.Proofs.Environment.Outline`: environments but for how hooks end

Nothing that a module or the host does through an environment is decided by how a hook has ended, or
by what has been reported.  So of two environments that differ in nothing else, whatever is done gets
the same reply in both, and they differ in nothing else afterwards.  A hook and its outline do the
same until they end.

The hooks are those of a `Module`.
-/
namespace Backplane

variable {g : ModuleError → ModuleError}

/-- A turn in outline: a hook that has ended has failed as it does in outline. -/
def Turn.outline (g : ModuleError → ModuleError) : Turn → Turn
  | .ended who hook failure => .ended who hook (hook.outlineFailure g failure)
  | t => t

namespace Environment

/-- Whether an environment is the outline of another, whatever has been reported in either. -/
structure Outlines (g : ModuleError → ModuleError) (e e' : Environment) : Prop where
  depot : e'.depot = e.depot.outline g
  broker : e'.broker = e.broker
  services : e'.services = e.services
  dossiers : e'.dossiers = e.dossiers
  kept : e'.kept = e.kept
  hosted : e'.hosted = e.hosted
  slots : e'.slots = e.slots
  tickets : e'.tickets = e.tickets
  history : e'.history = e.history
  turns : e'.turns = e.turns.map (Turn.outline g)
  claims : e'.claims = e.claims
  journal : e'.journal = e.journal
  entropy : e'.entropy = e.entropy
  nextMember : e'.nextMember = e.nextMember

/-- Whether something yields the same twice, and leaves an environment and its outline. -/
structure Repeats {α : Type} (g : ModuleError → ModuleError) (x x' : α × Environment) : Prop where
  reply : x'.1 = x.1
  env : Outlines g x.2 x'.2

variable {e e' : Environment} {p : Party} {h : Hold}

/-- The outline of an environment, in which nothing has been reported. -/
def outline (g : ModuleError → ModuleError) (e : Environment) : Environment :=
  { e with depot := e.depot.outline g, turns := e.turns.map (Turn.outline g), log := [] }

theorem outlines_outline : Outlines g e (e.outline g) := by
  constructor <;> rfl

namespace Outlines

theorem outline_eq (he : Outlines g e e') : e.outline g = { e' with log := [] } := by
  simp only [outline, he.depot, he.broker, he.services, he.dossiers, he.kept, he.hosted, he.slots,
    he.tickets, he.history, he.turns, he.claims, he.journal, he.entropy, he.nextMember]

/-! ## What is read -/

theorem dossier? (he : Outlines g e e') : e'.dossier? = e.dossier? := by
  funext member
  simp only [Environment.dossier?, he.dossiers]

theorem dossierOf (he : Outlines g e e') : e'.dossierOf p = e.dossierOf p := by
  simp only [Environment.dossierOf, he.dossier?]

theorem ownerName (he : Outlines g e e') : e'.ownerName p = e.ownerName p := by
  simp only [Environment.ownerName, he.dossier?]

theorem alive (he : Outlines g e e') : e'.alive = e.alive := by
  funext s
  simp only [Environment.alive, isHeld, he.dossiers, he.kept, he.hosted, he.slots]

theorem held? (he : Outlines g e e') {key : SlotKey} : e'.held? key = e.held? key :=
  congrArg (Keyed.get? · key) he.slots

theorem view (he : Outlines g e e') : e'.view h = e.view h := by
  cases h <;> simp only [Environment.view, numberOf, he.services]

theorem describe (he : Outlines g e e') : e'.describe = e.describe := by
  simp only [Environment.describe, describeLifecycle, he.depot, Depot.describe_outline, he.broker,
    he.claims]

/-! ## What is changed -/

theorem relog (he : Outlines g e e') {log log' : List LogEvent} :
    Outlines g { e with log } { e' with log := log' } :=
  { he with }

theorem report (he : Outlines g e e') {level : Level} {origin : Origin} {text : String} :
    Outlines g (e.report level origin text) (e'.report level origin text) :=
  he.relog

theorem note (he : Outlines g e e') {entry : JournalEntry} :
    Outlines g (e.note entry) (e'.note entry) :=
  { he with journal := congrArg (· ++ [entry]) he.journal }

theorem mark (he : Outlines g e e') {t : Turn} :
    Outlines g (e.mark t) (e'.mark (t.outline g)) :=
  { he with turns := by simp [Environment.mark, he.turns] }

theorem remember (he : Outlines g e e') {episode : Episode} :
    Outlines g (e.remember episode) (e'.remember episode) :=
  { he with history := congrArg (· ++ [episode]) he.history }

theorem withBroker (he : Outlines g e e') {broker : Broker} :
    Outlines g { e with broker } { e' with broker } :=
  { he with broker := rfl }

theorem withSlots (he : Outlines g e e') {slots : List (SlotKey × Hold)} :
    Outlines g { e with slots } { e' with slots } :=
  { he with slots := rfl }

theorem changeDossier (he : Outlines g e e') {member : Nat} {f : Dossier → Dossier} :
    Outlines g (e.changeDossier member f) (e'.changeDossier member f) :=
  { he with dossiers := congrArg (List.map _) he.dossiers }

theorem foldl {α : Type} {f f' : Environment → α → Environment} {xs : List α}
    (hf : ∀ {e e' : Environment} (x : α), Outlines g e e' → Outlines g (f e x) (f' e' x))
    (he : Outlines g e e') : Outlines g (xs.foldl f e) (xs.foldl f' e') := by
  induction xs generalizing e e' with
  | nil => exact he
  | cons x xs ih => exact ih (hf x he)

/-! ## References -/

theorem giveUp (he : Outlines g e e') : Outlines g (e.giveUp h) (e'.giveUp h) := by
  simp only [Environment.giveUp, he.broker]
  cases (e.broker.giveBack h).1 with
  | ok _ => exact he.withBroker
  | error error => exact he.withBroker.report

theorem giveUpAll {hs : List Hold} (he : Outlines g e e') :
    Outlines g (e.giveUpAll hs) (e'.giveUpAll hs) :=
  he.foldl fun _ he => he.giveUp

theorem fill (he : Outlines g e e') {key : SlotKey} : Outlines g (e.fill key h) (e'.fill key h) := by
  simp only [Environment.fill, he.held?, he.slots]
  cases e.held? key with
  | none => exact he.withSlots
  | some old => exact he.withSlots.giveUp

theorem vacate (he : Outlines g e e') {key : SlotKey} :
    Outlines g (e.vacate key) (e'.vacate key) :=
  { he with slots := congrArg (Keyed.erase · key) he.slots }

theorem place (he : Outlines g e e') {slot : Option String} :
    Outlines g (e.place p slot h) (e'.place p slot h) := by
  cases slot with
  | none => exact he.giveUp
  | some name => exact he.fill

theorem emptySlots (he : Outlines g e e') {member : Nat} :
    Outlines g (e.emptySlots member) (e'.emptySlots member) := by
  simp only [Environment.emptySlots, he.slots]
  exact he.withSlots.giveUpAll

theorem lease (he : Outlines g e e') {k : Contract} {slot : Option String} :
    Repeats g (e.lease p k slot) (e'.lease p k slot) := by
  simp only [Environment.lease, he.broker, he.alive, he.view]
  cases e.broker.lease e.alive k with
  | error error => exact ⟨rfl, he⟩
  | ok x => exact ⟨rfl, he.withBroker.place⟩

theorem panel (he : Outlines g e e') {k : Contract} {slot : Option String} :
    Repeats g (e.panel p k slot) (e'.panel p k slot) := by
  simp only [Environment.panel, he.broker, he.alive, he.view]
  cases (e.broker.panel e.alive k).1 with
  | error error => exact ⟨rfl, he.withBroker⟩
  | ok x => exact ⟨rfl, he.withBroker.place⟩

theorem release (he : Outlines g e e') {slot : String} :
    Repeats g (e.release p slot) (e'.release p slot) := by
  simp only [Environment.release, he.held?, he.broker]
  cases e.held? (p.slot slot) with
  | none => exact ⟨rfl, he⟩
  | some h =>
      simp only
      cases (e.broker.giveBack h).1 <;> exact ⟨rfl, he.withBroker.vacate⟩

theorem drop (he : Outlines g e e') {slot : String} :
    Repeats g (e.drop p slot) (e'.drop p slot) := by
  simp only [Environment.drop, he.held?]
  cases e.held? (p.slot slot) with
  | none => exact ⟨rfl, he⟩
  | some h => exact ⟨rfl, he.vacate.giveUp⟩

/-! ## Registrations -/

theorem announce (he : Outlines g e e') {origin : Origin} {text : String} :
    Outlines g (e.announce p origin text) (e'.announce p origin text) := by
  have hreported : e'.isReported p = e.isReported p := by
    simp only [isReported, he.dossierOf]
  simp only [Environment.announce, hreported]
  split
  · exact he.report
  · exact he

theorem keep (he : Outlines g e e') {name : Option String} {t : Ticket} {s : ServiceId} :
    Outlines g (e.keep p name t s) (e'.keep p name t s) := by
  simp only [Environment.keep]
  cases p.dossier? with
  | none => exact { he with hosted := congrArg (Keyed.put · _ s) he.hosted }
  | some n => exact he.changeDossier

theorem nameTicket (he : Outlines g e e') {name : Option String} {t : Ticket} :
    Outlines g (e.nameTicket name t) (e'.nameTicket name t) := by
  cases name with
  | none => exact he
  | some k => exact { he with tickets := congrArg (Keyed.put · k t) he.tickets }

theorem retain (he : Outlines g e e') {name : Option String} {t : Ticket} {s : ServiceId} :
    Outlines g (e.retain p name t s) (e'.retain p name t s) := by
  simp only [Environment.retain, he.dossierOf]
  exact he.keep.nameTicket.remember

theorem addService (he : Outlines g e e') {s : Service} {broker : Broker} :
    Outlines g { e.addService s with broker } { e'.addService s with broker } :=
  { he with broker := rfl, services := congrArg (· ++ [s]) he.services }

theorem publishInterface (he : Outlines g e e') {s : Service} {name : Option String} :
    Repeats g (e.publishInterface p s name) (e'.publishInterface p s name) := by
  simp only [Environment.publishInterface, he.broker, he.services, he.ownerName]
  cases e.broker.interfaces.register s.contract (e.ownerName p) e.services.length with
  | error error => exact ⟨rfl, he⟩
  | ok x => exact ⟨rfl, he.addService.announce.retain⟩

theorem publishAdvisor (he : Outlines g e e') {s : Service} {priority : Int} {name : Option String} :
    Repeats g (e.publishAdvisor p s priority name) (e'.publishAdvisor p s priority name) := by
  simp only [Environment.publishAdvisor, he.broker, he.services, he.ownerName]
  exact ⟨rfl, he.addService.announce.retain⟩

/-- A ticket can be withdrawn in both environments or in neither. -/
theorem withdrawTicket (he : Outlines g e e') {t : Ticket} :
    (∃ error, e.withdrawTicket t = .error error ∧ e'.withdrawTicket t = .error error) ∨
      ∃ after after', e.withdrawTicket t = .ok after ∧ e'.withdrawTicket t = .ok after' ∧
        Outlines g after after' := by
  simp only [Environment.withdrawTicket, he.broker]
  cases e.broker.withdraw t with
  | error error => exact .inl ⟨error, rfl, rfl⟩
  | ok b => exact .inr ⟨_, _, rfl, rfl, he.withBroker.report⟩

theorem forget (he : Outlines g e e') {t : Ticket} : Outlines g (e.forget p t) (e'.forget p t) := by
  simp only [Environment.forget]
  cases p.dossier? with
  | none => exact he
  | some n => exact he.changeDossier

theorem withdraw (he : Outlines g e e') {name : String} :
    Repeats g (e.withdraw p name) (e'.withdraw p name) := by
  simp only [Environment.withdraw, he.tickets]
  cases Keyed.get? e.tickets name with
  | none => exact ⟨rfl, he⟩
  | some t =>
      rcases he.withdrawTicket (t := t) with ⟨error, h, h'⟩ | ⟨after, after', h, h', hafter⟩
      · simp only [h, h']
        exact ⟨rfl, he⟩
      · simp only [h, h']
        exact ⟨rfl, hafter.forget.remember⟩

/-! ## Consultations -/

/-- Something can be drawn from a generator in both environments or in neither. -/
theorem withGenerator {α : Type} (he : Outlines g e e') {f : Xorshift → α × Xorshift} :
    (∃ error, e.withGenerator f = .error error ∧ e'.withGenerator f = .error error) ∨
      ∃ x after after', e.withGenerator f = .ok (x, after) ∧ e'.withGenerator f = .ok (x, after') ∧
        Outlines g after after' := by
  simp only [Environment.withGenerator, generatorOf, he.broker, he.alive, he.services]
  cases e.broker.lease e.alive .generator with
  | error error => exact .inl ⟨error, rfl, rfl⟩
  | ok x =>
      have hdrawn : ∀ services broker,
          Outlines g { e with broker, services } { e' with broker, services } :=
        fun _ _ => { he with broker := rfl, services := rfl }
      exact .inr ⟨_, _, _, rfl, rfl, (hdrawn _ _).giveUp⟩

theorem draw (he : Outlines g e e') {requests : List Xorshift.Draw} :
    Repeats g (e.draw requests) (e'.draw requests) := by
  simp only [Environment.draw]
  rcases he.withGenerator (f := Xorshift.drawAll requests) with
    ⟨error, h, h'⟩ | ⟨x, after, after', h, h', hafter⟩
  · simp only [h, h']
    exact ⟨rfl, he⟩
  · simp only [h, h']
    exact ⟨rfl, hafter⟩

theorem filter (he : Outlines g e e') {text : String} :
    Repeats g (e.filter text) (e'.filter text) := by
  have hfilter : e'.wordFilterOf = e.wordFilterOf := by
    funext s
    simp only [wordFilterOf, he.services]
  simp only [Environment.filter, he.broker, he.alive, hfilter]
  cases e.broker.lease e.alive .wordFilter with
  | error error => exact ⟨rfl, he⟩
  | ok x => exact ⟨rfl, he.withBroker.giveUp⟩

theorem score (he : Outlines g e e') {k : Kill} {s : Option Service} :
    Repeats g (e.score k s) (e'.score k s) := by
  have hidle : ∀ award : Award, Repeats g (award, e) (award, e') := fun _ => ⟨rfl, he⟩
  cases s with
  | none => exact hidle _
  | some s =>
      cases s with
      | scorer scorer =>
          cases scorer with
          | bounty => exact hidle _
          | perFlag points => exact hidle _
          | fixed award tag => exact ⟨rfl, he.note⟩
          | lottery chance prizes =>
              simp only [Environment.score]
              rcases he.withGenerator (f := prizeAward chance prizes) with
                ⟨error, h, h'⟩ | ⟨x, after, after', h, h', hafter⟩
              · simp only [h, h']
                exact hidle _
              · simp only [h, h']
                exact ⟨rfl, hafter⟩
      | _ => exact hidle _

theorem scores (he : Outlines g e e') {k : Kill} {seats : List Seat} :
    Repeats g (Environment.scores k seats e) (Environment.scores k seats e') := by
  induction seats generalizing e e' with
  | nil => exact ⟨rfl, he⟩
  | cons seat seats ih =>
      have hone : Repeats g (e.score k e.services[seat.service]?) _ := he.score
      have hmore := ih hone.env
      simp only [Environment.scores, he.services, hone.reply, hmore.reply]
      exact ⟨rfl, hmore.env⟩

theorem award (he : Outlines g e e') {k : Kill} : Repeats g (e.award k) (e'.award k) := by
  simp only [Environment.award, he.broker, he.alive]
  obtain ⟨found, broker⟩ := e.broker.panel e.alive .killPoints
  cases found with
  | error error => exact ⟨rfl, he.withBroker⟩
  | ok x =>
      have hall : Repeats g (Environment.scores k x.seats { e with broker }) _ := he.withBroker.scores
      exact ⟨congrArg (fun awards => Reply.award (.total awards)) hall.reply, hall.env.giveUp⟩

theorem permit (he : Outlines g e e') {s : Option Service} :
    Repeats g (e.permit s) (e'.permit s) := by
  cases s with
  | none => exact ⟨rfl, he⟩
  | some s =>
      cases s with
      | permit allow tag => exact ⟨rfl, he.note⟩
      | _ => exact ⟨rfl, he⟩

theorem permits (he : Outlines g e e') {seats : List Seat} :
    Repeats g (Environment.permits seats e) (Environment.permits seats e') := by
  induction seats generalizing e e' with
  | nil => exact ⟨rfl, he⟩
  | cons seat seats ih =>
      have hone : Repeats g (e.permit e.services[seat.service]?) _ := he.permit
      simp only [Environment.permits, he.services, hone.reply]
      split
      · exact ih hone.env
      · exact ⟨rfl, hone.env⟩

theorem banner (he : Outlines g e e') : Repeats g e.banner e'.banner := by
  simp only [Environment.banner, he.broker, he.alive]
  obtain ⟨found, broker⟩ := e.broker.panel e.alive .bannerPermit
  cases found with
  | error error => exact ⟨rfl, he.withBroker⟩
  | ok x =>
      have hall : Repeats g (Environment.permits x.seats { e with broker }) _ := he.withBroker.permits
      exact ⟨congrArg (fun allowed => Reply.flag (some allowed)) hall.reply, hall.env.giveUp⟩

/-! ## Calls from a hook -/

theorem tryClaim (he : Outlines g e e') {names : List String} :
    Repeats g (e.tryClaim names) (e'.tryClaim names) := by
  simp only [Environment.tryClaim, he.claims]
  cases (Claim.takeAll names { claims := e.claims }).1 <;> exact ⟨rfl, { he with claims := rfl }⟩

theorem answerInside (he : Outlines g e e') {request : LifecycleCall} :
    Repeats g (e.answerInside request) (e'.answerInside request) := by
  cases request with
  | load source =>
      simp only [Environment.answerInside]
      cases source.read with
      | error error => exact ⟨rfl, he⟩
      | ok m => exact he.report.tryClaim
  | add name unit => exact he.tryClaim
  | unload name => exact he.tryClaim
  | describe => exact ⟨congrArg LifecycleReply.texts he.describe, he⟩
  | _ => exact ⟨rfl, he⟩

/-! ## Actions and deeds -/

theorem askDossier (he : Outlines g e e') {f : Dossier → Reply} :
    Repeats g (e.askDossier p f, e) (e'.askDossier p f, e') := by
  refine ⟨?_, he⟩
  simp only [Environment.askDossier, he.dossierOf]

theorem keepDossier (he : Outlines g e e') {name : Option String} :
    Repeats g (e.keepDossier p name) (e'.keepDossier p name) := by
  simp only [Environment.keepDossier, he.dossierOf, he.kept]
  cases e.dossierOf p with
  | none => exact ⟨rfl, he⟩
  | some d => exact ⟨rfl, { he with kept := rfl }⟩

theorem perform (he : Outlines g e e') {a : Action} :
    Repeats g (e.perform p a) (e'.perform p a) := by
  cases a with
  | publishInterface s name => exact he.publishInterface
  | publishAdvisor s priority name => exact he.publishAdvisor
  | withdraw name => exact he.withdraw
  | lease k slot => exact he.lease
  | panel k slot => exact he.panel
  | inspect slot =>
      refine ⟨?_, he⟩
      simp only [Environment.perform, Environment.inspect, he.held?, he.view]
  | release slot => exact he.release
  | drop slot => exact he.drop
  | outstanding name =>
      refine ⟨?_, he⟩
      simp only [Environment.perform, he.tickets, he.broker]
  | standing c =>
      refine ⟨?_, he⟩
      simp only [Environment.perform, Environment.standing, he.broker]
  | award k => exact he.award
  | banner => exact he.banner
  | filter text => exact he.filter
  | draw requests => exact he.draw
  | registrations => exact he.askDossier
  | moduleName => exact he.askDossier
  | describe => exact he.askDossier
  | keepDossier name => exact he.keepDossier
  | entropy =>
      exact ⟨congrArg Reply.generator he.entropy,
        { he with entropy := congrArg Xorshift.next he.entropy }⟩
  | report event => exact ⟨rfl, he.relog⟩
  | call request =>
      have hcall : Repeats g (e.answerInside request) _ := he.answerInside
      exact ⟨congrArg Reply.called hcall.reply, hcall.env⟩

theorem dropService (he : Outlines g e e') {ticket : String} :
    Repeats g (e.dropService ticket) (e'.dropService ticket) := by
  simp only [Environment.dropService, he.hosted]
  exact ⟨rfl, { he with hosted := rfl }⟩

theorem dropDossier (he : Outlines g e e') {name : String} :
    Repeats g (e.dropDossier name) (e'.dropDossier name) := by
  simp only [Environment.dropDossier, he.kept]
  exact ⟨rfl, { he with kept := rfl }⟩

theorem carryOut (he : Outlines g e e') {member : Nat} {d : Deed} :
    Repeats g (Environment.carryOut member e d) (Environment.carryOut member e' d) := by
  cases d with
  | through name action =>
      simp only [Environment.carryOut, he.kept]
      cases Keyed.get? e.kept name with
      | none => exact ⟨rfl, he⟩
      | some n => exact he.perform
  | direct owner action => exact he.perform
  | dropService ticket => exact he.dropService
  | dropDossier name => exact he.dropDossier

theorem carryOutAll (he : Outlines g e e') {member : Nat} {deeds : List Deed} :
    Outlines g (e.carryOutAll member deeds) (e'.carryOutAll member deeds) :=
  he.foldl fun _ he => he.carryOut.env

/-! ## Hooks -/

variable {who : Actor} {hook : Hook}

/-- What a behaviour does until it ends has nothing to do with how it ends. -/
theorem run (he : Outlines g e e') {f : Ending → Ending} {b : Behaviour} :
    (Environment.run who hook (b.mapEnding f) e').1 = f (Environment.run who hook b e).1 ∧
      Outlines g (Environment.run who hook b e).2 (Environment.run who hook (b.mapEnding f) e').2 := by
  induction b generalizing e e' with
  | finish ending => exact ⟨rfl, he⟩
  | mention action reply next ih => exact ih he.note
  | perform action next ih =>
      have hdone : Repeats g (e.perform (.member who.member) action) _ := he.perform
      simp only [Behaviour.mapEnding, Environment.run, hdone.reply]
      exact ih _ hdone.env
  | carryOut deed next ih =>
      have hdone : Repeats g (Environment.carryOut who.member e deed) _ := he.carryOut
      simp only [Behaviour.mapEnding, Environment.run, hdone.reply]
      exact ih _ hdone.env

/-- A hook in outline does what the hook does, and fails as it is to fail in outline. -/
theorem runHook (he : Outlines g e e') {hooks : Hooks} :
    (e'.runHook who (hooks.outline g) hook).1 = hook.outlineFailure g (e.runHook who hooks hook).1 ∧
      Outlines g (e.runHook who hooks hook).2 (e'.runHook who (hooks.outline g) hook).2 := by
  have hbegun : Outlines g ((e.note (.began who hook)).mark (.began who hook)) _ := he.note.mark
  obtain ⟨hending, hafter⟩ := hbegun.run (f := hook.outlineEnding g) (b := hooks.of hook)
  have hfailure : (e'.runHook who (hooks.outline g) hook).1 =
      hook.outlineFailure g (e.runHook who hooks hook).1 := by
    simp only [Environment.runHook, Hooks.of_outline]
    exact (congrArg Ending.failure? hending).trans Hook.failure?_outlineEnding
  refine ⟨hfailure, ?_⟩
  simp only [Environment.runHook, Hooks.of_outline] at hfailure ⊢
  rw [hfailure]
  exact hafter.mark

end Outlines

end Environment

end Backplane
