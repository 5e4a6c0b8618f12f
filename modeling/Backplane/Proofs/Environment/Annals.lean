import Backplane.Proofs.Environment.Claims
/-!
# `Backplane.Proofs.Environment.Annals`: what actions leave as it is

Giving back and most consultations change counts and reports, and nothing else; to draw changes a
service as well, to keep a reference a slot, and to publish or withdraw what is on file.  Only the
lifecycle builds instances, runs their hooks and drops them: whatever a hook does itself, and
whatever the host does, nothing befalls any instance meanwhile, and none is added.

What is on file is in the `Broker` and in the `ModuleContext`s.
-/
namespace Backplane.Environment

variable {env : Environment} {p : Party} {h : Hold} {n : Nat}

/-! ## Consultations -/

/-- Something about an environment that counts and reports have no part in. -/
structure Detached {α : Type} (f : Environment → α) : Prop where
  same : ∀ env broker journal log, f { env with broker, journal, log } = f env

namespace Detached

variable {α : Type} {f : Environment → α} (hf : Detached f)
include hf

theorem broker {b : Broker} : f { env with broker := b } = f env :=
  hf.same env b env.journal env.log

theorem note {e : JournalEntry} : f (env.note e) = f env :=
  hf.same env env.broker _ env.log

theorem giveUp : f (env.giveUp h) = f env := by
  rw [Environment.giveUp]
  cases (env.broker.giveBack h).1 with
  | ok _ => exact hf.broker
  | error e => exact hf.same env _ env.journal _

theorem giveUpAll {hs : List Hold} : f (env.giveUpAll hs) = f env := by
  induction hs generalizing env with
  | nil => rfl
  | cons h hs ih => exact (@ih (env.giveUp h)).trans hf.giveUp

theorem filter {text : String} : f (env.filter text).2 = f env := by
  rw [Environment.filter]
  cases env.broker.lease env.alive .wordFilter with
  | error e => rfl
  | ok r => exact hf.giveUp.trans hf.broker

theorem permit {s : Option Service} : f (env.permit s).2 = f env := by
  unfold Environment.permit
  split
  · exact hf.note
  · rfl

theorem permits {seats : List Seat} : f (Environment.permits seats env).2 = f env := by
  induction seats generalizing env with
  | nil => rfl
  | cons s seats ih =>
      rw [Environment.permits]
      cases (env.permit env.services[s.service]?).1 with
      | true => exact ih.trans hf.permit
      | false => exact hf.permit

theorem banner : f env.banner.2 = f env := by
  rw [Environment.banner]
  cases (env.broker.panel env.alive .bannerPermit).1 with
  | error e => exact hf.broker
  | ok x => exact hf.giveUp.trans (hf.permits.trans hf.broker)

theorem answerInside {request : LifecycleCall} : f (env.answerInside request).2 = f env := by
  unfold Environment.answerInside
  split
  · split
    · rfl
    · rw [Environment.tryClaim_eq]
      exact hf.same env env.broker env.journal _
  all_goals first | rfl | rw [Environment.tryClaim_eq]

theorem announce {origin : Origin} {text : String} : f (env.announce p origin text) = f env := by
  unfold Environment.announce
  split
  · exact hf.same env env.broker env.journal _
  · rfl

theorem withdrawTicket {t : Ticket} {after : Environment}
    (h : env.withdrawTicket t = .ok after) : f after = f env := by
  rw [Environment.withdrawTicket] at h
  cases hw : env.broker.withdraw t with
  | error e => simp [hw, Except.map] at h
  | ok b =>
      simp only [hw, Except.map, Except.ok.injEq] at h
      rw [← h]
      exact hf.same env _ env.journal _

end Detached

/-- Something about an environment that services have no part in either. -/
structure Steady {α : Type} (f : Environment → α) : Prop extends Detached f where
  services : ∀ (env : Environment) services, f { env with services } = f env

namespace Steady

variable {α β : Type} {f : Environment → α} (hf : Steady f)
include hf

theorem addService {s : Service} : f (env.addService s) = f env := hf.services env _

theorem withGenerator {g : Xorshift → β × Xorshift} {r : β × Environment}
    (hr : env.withGenerator g = .ok r) : f r.2 = f env := by
  rw [Environment.withGenerator] at hr
  cases hl : env.broker.lease env.alive .generator with
  | error e => simp [hl, Except.map] at hr
  | ok x =>
      simp only [hl, Except.map, Except.ok.injEq] at hr
      subst hr
      exact hf.giveUp.trans ((hf.services { env with broker := x.2 } _).trans hf.broker)

theorem draw {requests : List Xorshift.Draw} : f (env.draw requests).2 = f env := by
  rw [Environment.draw]
  cases hg : env.withGenerator (Xorshift.drawAll requests) with
  | error e => rfl
  | ok r =>
      have hsame : f r.2 = f env := hf.withGenerator hg
      exact hsame

theorem score {k : Kill} {s : Option Service} : f (env.score k s).2 = f env := by
  unfold Environment.score
  split
  · rfl
  · rfl
  · exact hf.note
  · split
    · next hg => exact hf.withGenerator hg
    · rfl
  · rfl

theorem scores {k : Kill} {seats : List Seat} : f (Environment.scores k seats env).2 = f env := by
  induction seats generalizing env with
  | nil => rfl
  | cons s seats ih => exact ih.trans hf.score

theorem award {k : Kill} : f (env.award k).2 = f env := by
  rw [Environment.award]
  cases (env.broker.panel env.alive .killPoints).1 with
  | error e => exact hf.broker
  | ok x => exact hf.giveUp.trans (hf.scores.trans hf.broker)

end Steady

/-! ## References -/

/-- Something about an environment that slots have no part in either. -/
structure Remote {α : Type} (f : Environment → α) : Prop extends Detached f where
  slots : ∀ (env : Environment) slots, f { env with slots } = f env

namespace Remote

variable {α : Type} {f : Environment → α} (hf : Remote f)
include hf

theorem fill {key : SlotKey} : f (env.fill key h) = f env := by
  rw [Environment.fill]
  cases env.held? key with
  | none => exact hf.slots env _
  | some old => exact hf.giveUp.trans (hf.slots env _)

theorem place {slot : Option String} : f (env.place p slot h) = f env := by
  cases slot with
  | none => exact hf.giveUp
  | some name => exact hf.fill

theorem emptySlots : f (env.emptySlots n) = f env :=
  hf.giveUpAll.trans (hf.slots env _)

theorem drop {slot : String} : f (env.drop p slot).2 = f env := by
  rw [Environment.drop]
  cases env.held? (p.slot slot) with
  | none => rfl
  | some h => exact hf.giveUp.trans (hf.slots env _)

theorem release {slot : String} : f (env.release p slot).2 = f env := by
  rw [Environment.release]
  cases env.held? (p.slot slot) with
  | none => rfl
  | some h =>
      have hsame : f ({ env with broker := (env.broker.giveBack h).2 }.vacate (p.slot slot)) = f env :=
        (hf.slots _ _).trans hf.broker
      simp only
      cases (env.broker.giveBack h).1 <;> exact hsame

theorem lease {k : Contract} {slot : Option String} : f (env.lease p k slot).2 = f env := by
  rw [Environment.lease]
  cases env.broker.lease env.alive k with
  | error e => rfl
  | ok r => exact hf.place.trans hf.broker

theorem panel {k : Contract} {slot : Option String} : f (env.panel p k slot).2 = f env := by
  rw [Environment.panel]
  cases (env.broker.panel env.alive k).1 with
  | error e => exact hf.broker
  | ok x => exact hf.place.trans hf.broker

end Remote

/-! ## Publishing and withdrawing -/

/-- Something about an environment that dossiers, services that the host keeps, and what has become
of registrations have no part in either. -/
structure Aloof {α : Type} (f : Environment → α) : Prop extends Detached f where
  filing : ∀ (env : Environment) dossiers hosted tickets history,
    f { env with dossiers, hosted, tickets, history } = f env

namespace Aloof

variable {α : Type} {f : Environment → α} (hf : Aloof f)
include hf

theorem retain {t : Ticket} {s : ServiceId} {name : Option String} :
    f (env.retain p name t s) = f env := by
  rw [Environment.retain, Environment.keep]
  cases p.dossier? <;> cases name <;> exact hf.filing env _ _ _ _

theorem publishInterface (hs : Steady f) {s : Service} {name : Option String} :
    f (env.publishInterface p s name).2 = f env := by
  rw [Environment.publishInterface]
  cases env.broker.interfaces.register s.contract (env.ownerName p) env.services.length with
  | error e => rfl
  | ok r => exact hf.retain.trans (hf.announce.trans (hf.broker.trans hs.addService))

theorem publishAdvisor (hs : Steady f) {s : Service} {priority : Int} {name : Option String} :
    f (env.publishAdvisor p s priority name).2 = f env :=
  hf.retain.trans (hf.announce.trans (hf.broker.trans hs.addService))

theorem forget {t : Ticket} : f (env.forget p t) = f env := by
  rw [Environment.forget]
  cases p.dossier? with
  | none => rfl
  | some n => exact hf.filing env _ env.hosted env.tickets env.history

theorem withdraw {name : String} : f (env.withdraw p name).2 = f env := by
  rw [Environment.withdraw]
  cases Keyed.get? env.tickets name with
  | none => rfl
  | some t =>
      cases hw : env.withdrawTicket t with
      | error e => simp only [hw]
      | ok after =>
          have hremember : f ((after.forget p t).remember (.withdrawn t)) = f (after.forget p t) :=
            hf.filing (after.forget p t) _ _ _ _
          simp only [hw]
          exact hremember.trans (hf.forget.trans (hf.withdrawTicket hw))

end Aloof

theorem keepDossier_same {α : Type} {f : Environment → α} {name : Option String}
    (hf : ∀ kept, f { env with kept } = f env) : f (env.keepDossier p name).2 = f env := by
  rw [keepDossier]
  cases env.dossierOf p with
  | none => rfl
  | some d => exact hf _

/-! ## Whatever is done -/

/-- Something about an environment that nothing which modules and the host do themselves has a part
in. -/
structure Inert {α : Type} (f : Environment → α) : Prop extends Steady f, Remote f, Aloof f where
  store : ∀ (env : Environment) kept hosted entropy, f { env with kept, hosted, entropy } = f env

namespace Inert

variable {α : Type} {f : Environment → α} (hf : Inert f)
include hf

theorem perform (a : Action) : f (env.perform p a).2 = f env := by
  cases a with
  | publishInterface s name => exact hf.publishInterface hf.toSteady
  | publishAdvisor s priority name => exact hf.publishAdvisor hf.toSteady
  | withdraw name => exact hf.withdraw
  | lease k slot => exact hf.lease
  | panel k slot => exact hf.panel
  | release slot => exact hf.release
  | drop slot => exact hf.drop
  | award k => exact hf.award
  | banner => exact hf.banner
  | filter text => exact hf.filter
  | draw requests => exact hf.draw
  | keepDossier name => exact keepDossier_same fun kept => hf.store env kept env.hosted env.entropy
  | entropy => exact hf.store env env.kept env.hosted _
  | report e => exact hf.same env env.broker env.journal _
  | call request => exact hf.answerInside
  | _ => rfl

theorem carryOut (d : Deed) : f (Environment.carryOut n env d).2 = f env := by
  cases d with
  | through name a =>
      rw [Environment.carryOut]
      cases Keyed.get? env.kept name with
      | none => rfl
      | some m => exact hf.perform a
  | direct owner a => exact hf.perform a
  | dropService ticket => exact hf.store env env.kept _ env.entropy
  | dropDossier name => exact hf.store env _ env.hosted env.entropy

theorem carryOutAll {ds : List Deed} : f (env.carryOutAll n ds) = f env := by
  induction ds generalizing env with
  | nil => rfl
  | cons d ds ih => exact ih.trans (hf.carryOut d)

theorem run {who : Actor} {hook : Hook} (b : Behaviour) :
    f (Environment.run who hook b env).2 = f env := by
  induction b generalizing env with
  | finish ending => rfl
  | mention action reply next ih => exact ih.trans hf.note
  | perform action next ih => exact (ih _).trans (hf.perform action)
  | carryOut deed next ih => exact (ih _).trans (hf.carryOut deed)

end Inert

theorem inert_claims : Inert Environment.claims :=
  { same := fun _ _ _ _ => rfl
    services := fun _ _ => rfl
    slots := fun _ _ => rfl
    filing := fun _ _ _ _ _ => rfl
    store := fun _ _ _ _ => rfl }

/-! ## Annals -/

/-- What befell instances so far, and the number of the next one. -/
def annals (env : Environment) : List Turn × Nat := (env.turns, env.nextMember)

theorem inert_annals : Inert annals :=
  { same := fun _ _ _ _ => rfl
    services := fun _ _ => rfl
    slots := fun _ _ => rfl
    filing := fun _ _ _ _ _ => rfl
    store := fun _ _ _ _ => rfl }

theorem emptySlots_annals : (env.emptySlots n).annals = env.annals := inert_annals.emptySlots

theorem perform_annals (a : Action) : (env.perform p a).2.annals = env.annals := inert_annals.perform a

theorem carryOutAll_annals {ds : List Deed} : (carryOutAll n env ds).annals = env.annals :=
  inert_annals.carryOutAll

/-! ## Hooks -/

theorem run_annals {who : Actor} {hook : Hook} (b : Behaviour) :
    (run who hook b env).2.annals = env.annals := inert_annals.run b

/-- A hook begins and ends, and nothing else befalls anybody meanwhile. -/
theorem runHook_annals {who : Actor} {hooks : Hooks} {hook : Hook} :
    (env.runHook who hooks hook).2.annals
      = (env.turns ++ [.began who hook, .ended who hook (env.runHook who hooks hook).1],
          env.nextMember) := by
  let start := (env.note (.began who hook)).mark (.began who hook)
  have hrun : (run who hook (hooks.of hook) start).2.annals
      = (env.turns ++ [.began who hook], env.nextMember) := run_annals _
  obtain ⟨hturns, hnext⟩ := Prod.mk.inj hrun
  refine Prod.ext ?_ hnext
  show (run who hook (hooks.of hook) start).2.turns ++ _ = _
  rw [hturns, List.append_assoc]
  rfl

end Backplane.Environment
