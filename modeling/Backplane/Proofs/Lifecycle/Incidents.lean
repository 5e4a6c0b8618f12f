import Backplane.Proofs.Environment.Actions
import Backplane.Proofs.Lifecycle.Unloading
/-!
# `Backplane.Proofs.Lifecycle.Incidents`: taking down, incident by incident

Whatever happens to registrations and references while members are taken down is one of these:

    act      a hook acts, in whatever capacity
    clear    the dossier of a member is emptied
    remove   a registration that was in the dossier is removed
    leave    the member is dropped

Incidents follow upon each other: each begins where the one before has ended.

The last three are the parts of `teardown` of a `ModuleRecord`.
-/
namespace Backplane

/-- Something that happens to registrations and references, and the environment in which it does. -/
inductive Incident
  | act (env : Environment) (p : Party) (a : Action)
  | clear (env : Environment) (member : Nat)
  | remove (env : Environment) (module : String) (t : Ticket)
  | leave (env : Environment) (m : Member)

namespace Incident

def before : Incident → Environment
  | act env _ _ => env
  | clear env _ => env
  | remove env _ _ => env
  | leave env _ => env

def after : Incident → Environment
  | act env p a => (env.perform p a).2
  | clear env n => env.clearRecords n
  | remove env module t => env.removeTicket module t
  | leave env m => m.leave env

/-- The references that are obtained in an incident. -/
def obtained : Incident → List Hold
  | act env _ a => env.obtained a
  | _ => []

/-- Whether an incident is the withdrawal of a registration.  Either somebody asks for that by a
name that he has its ticket under, and is told that it is done; or its turn to be removed has come,
and withdrawing it does not fail, so that it is not removed by force. -/
inductive Withdraws : Incident → Ticket → Prop
  | asked {env : Environment} {p : Party} {name : String} {t : Ticket}
      (hname : Keyed.get? env.tickets name = some t)
      (hdone : (env.perform p (.withdraw name)).1 = .done)
      (hw : env.broker.withdraw t = .ok (env.perform p (.withdraw name)).2.broker) :
      Withdraws (.act env p (.withdraw name)) t
  | removed {env : Environment} {module : String} {t : Ticket}
      (hw : env.withdrawTicket t = .ok (env.removeTicket module t)) :
      Withdraws (.remove env module t) t

/-- Whether a registration is still shut off in an incident: as long as it is there nobody can see it
or refers to it, nobody obtains a reference to it, so that none comes into a slot, and it does not go
but by being withdrawn. -/
structure Spares (d : Incident) (t : Ticket) : Prop where
  hidden : ∀ u, d.before.broker.usage? t = some u → u.retired = true ∧ u.outstanding = 0
  unseen : ∀ h ∈ d.obtained, t ∉ h.tickets
  unheld : ∀ x ∈ d.after.slots, t ∈ x.2.tickets → x ∈ d.before.slots
  orderly : (d.before.broker.usage? t).isSome → (d.after.broker.usage? t).isSome ∨ d.Withdraws t

end Incident

/-- Whether incidents are all that happens between two environments, as far as it concerns
registrations and references. -/
def Spans : Environment → List Incident → Environment → Prop
  | e, [], e' => e'.scene [] = e.scene []
  | e, d :: ds, e' => d.before.scene [] = e.scene [] ∧ Spans d.after ds e'

variable {e e' e'' : Environment} {ds ds' : List Incident} {d : Incident} {t : Ticket}
  {gone : List Ticket}

namespace Spans

theorem congr_left (h : Spans e ds e') (heq : e.scene [] = e''.scene []) : Spans e'' ds e' := by
  cases ds with
  | nil => exact Eq.trans h heq
  | cons d ds => exact ⟨h.1.trans heq, h.2⟩

theorem congr_right (h : Spans e ds e') (heq : e''.scene [] = e'.scene []) : Spans e ds e'' := by
  induction ds generalizing e with
  | nil => exact heq.trans h
  | cons d ds ih => exact ⟨h.1, ih h.2⟩

theorem append (h : Spans e ds e') (h' : Spans e' ds' e'') : Spans e (ds ++ ds') e'' := by
  induction ds generalizing e with
  | nil => exact h'.congr_left h
  | cons d ds ih => exact ⟨h.1, ih h.2⟩

/-- Between an environment in which a registration is present and one in which it is not, it is
withdrawn. -/
theorem withdraws (h : Spans e ds e') (hds : ∀ d ∈ ds, d.Spares t)
    (ht : (e.broker.usage? t).isSome) (ht' : e'.broker.usage? t = none) :
    ∃ d ∈ ds, d.Withdraws t := by
  induction ds generalizing e with
  | nil =>
      have hsame : e'.broker = e.broker := congrArg Scene.broker h
      simp [← hsame, ht'] at ht
  | cons d ds ih =>
      have hsame : d.before.broker = e.broker := congrArg Scene.broker h.1
      rcases (hds d List.mem_cons_self).orderly (hsame ▸ ht) with hleft | hw
      · obtain ⟨x, hx, hxw⟩ := ih h.2 (fun x hx => hds x (List.mem_cons_of_mem _ hx)) hleft
        exact ⟨x, List.mem_cons_of_mem _ hx, hxw⟩
      · exact ⟨d, List.mem_cons_self, hw⟩

end Spans

/-! ## What is hidden -/

/-- What is hidden is retired, and nobody refers to it. -/
theorem Environment.Sound.shut (hs : e.Sound gone) (ht : t ∈ gone) {u : Usage}
    (hu : e.broker.usage? t = some u) : u.retired = true ∧ u.outstanding = 0 := by
  have hhidden : e.broker.hidden? t = some u.retired := by rw [Broker.hidden?, hu, Option.map_some]
  have hr := (hs.chronicled.hidden t _ hhidden).mpr ht
  exact ⟨hr, hs.balanced.exact.idle t u (Broker.held?_of_usage? hu) hr⟩

theorem Incident.act_spares {p : Party} {a : Action} (hs : e.Sound gone)
    (hhome : ∀ n, p.home = .member n → n < e.nextMember) (ht : t ∈ gone) :
    (Incident.act e p a).Spares t where
  hidden := fun u hu => hs.shut ht hu
  unseen := fun h hh => Environment.obtained_hidden hs ht hh
  unheld := fun x hx hmem => (Environment.mem_slots_perform hx).resolve_right fun hnew =>
    Environment.obtained_hidden hs ht hnew hmem
  orderly := fun hp => by
    have hcalm : Calm gone e (e.perform p a).2 := .moves hs (Environment.perform_moves a) hhome
    by_cases hw : .withdrawn t ∈ (e.perform p a).2.history
    · obtain ⟨-, hout, -⟩ := (hs.chronicled.present t).mp hp
      obtain ⟨name, rfl, hname, hdone, hw⟩ := (Environment.perform_withdrawn hw).resolve_left hout
      exact Or.inr (.asked hname hdone hw)
    · exact Or.inl (hcalm.course.usage?_isSome hs (fun _ hn => hn.elim) hp hw)

/-! ## Hooks -/

namespace Environment

/-- What happens in a deed. -/
def deedIncidents (member : Nat) (env : Environment) : Deed → List Incident
  | .through name a =>
    match Keyed.get? env.kept name with
    | some n => [.act env ⟨.member member, .dossier n⟩ a]
    | none => []
  | .direct owner a => [.act env ⟨.member member, .owner owner⟩ a]
  | .dropService _ => []
  | .dropDossier _ => []

/-- What happens while a behaviour is run. -/
def runIncidents (who : Actor) (hook : Hook) : Behaviour → Environment → List Incident
  | .finish _, _ => []
  | .mention a reply next, env => runIncidents who hook next (env.note (.did who hook a reply))
  | .perform a next, env =>
    let r := env.perform (.member who.member) a
    .act env (.member who.member) a :: runIncidents who hook (next r.1) r.2
  | .carryOut d next, env =>
    let r := carryOut who.member env d
    deedIncidents who.member env d ++ runIncidents who hook (next r.1) r.2

variable {env : Environment} {who : Actor} {hook : Hook} {n : Nat}

theorem deedIncidents_spans (x : Deed) :
    Spans env (deedIncidents n env x) (carryOut n env x).2 := by
  cases x with
  | through name a =>
      rw [deedIncidents, carryOut]
      cases Keyed.get? env.kept name with
      | none => exact rfl
      | some m => exact ⟨rfl, rfl⟩
  | direct owner a => exact ⟨rfl, rfl⟩
  | dropService ticket => exact rfl
  | dropDossier name => exact rfl

theorem runIncidents_spans (b : Behaviour) :
    Spans env (runIncidents who hook b env) (run who hook b env).2 := by
  induction b generalizing env with
  | finish ending => exact rfl
  | mention a reply next ih => exact (@ih (env.note (.did who hook a reply))).congr_left rfl
  | perform a next ih => exact ⟨rfl, ih _⟩
  | carryOut x next ih => exact (deedIncidents_spans x).append (ih _)

theorem deedIncidents_spares (hs : env.Sound gone) (hn : n < env.nextMember) (ht : t ∈ gone)
    (x : Deed) : ∀ d ∈ deedIncidents n env x, d.Spares t := by
  have hact : ∀ office a, (Incident.act env ⟨.member n, office⟩ a).Spares t := fun office a =>
    Incident.act_spares hs (Scene.bounded_home hn) ht
  cases x with
  | through name a =>
      rw [deedIncidents]
      cases Keyed.get? env.kept name with
      | none => simp
      | some m => simpa using hact (.dossier m) a
  | direct owner a => simpa [deedIncidents] using hact (.owner owner) a
  | dropService ticket => simp [deedIncidents]
  | dropDossier name => simp [deedIncidents]

theorem runIncidents_spares (hs : env.Sound gone) (hn : who.member < env.nextMember) (ht : t ∈ gone)
    (b : Behaviour) : ∀ d ∈ runIncidents who hook b env, d.Spares t := by
  induction b generalizing env with
  | finish ending => simp [runIncidents]
  | mention a reply next ih =>
      have hnoted : (env.note (.did who hook a reply)).Sound gone := hs.same rfl
      exact ih hnoted hn
  | perform a next ih =>
      obtain ⟨hnext, hleads⟩ := hs.moves (perform_moves (p := .member who.member) a)
        (Scene.bounded_home hn)
      intro d hd
      rcases List.mem_cons.mp hd with rfl | hd
      · exact Incident.act_spares hs (Scene.bounded_home hn) ht
      · exact ih _ hnext (Nat.lt_of_lt_of_eq hn hleads.nextMember.symm) d hd
  | carryOut x next ih =>
      obtain ⟨hnext, hleads⟩ := hs.moves (carryOut_moves x) (Scene.bounded_home hn)
      intro d hd
      rcases List.mem_append.mp hd with hd | hd
      · exact deedIncidents_spares hs hn ht x d hd
      · exact ih _ hnext (Nat.lt_of_lt_of_eq hn hleads.nextMember.symm) d hd

/-! ## Removals -/

/-- What happens while registrations are removed in order. -/
def removeIncidents (module : String) : List Ticket → Environment → List Incident
  | [], _ => []
  | t :: ts, env => .remove env module t :: removeIncidents module ts (env.removeTicket module t)

variable {module : String} {ts : List Ticket}

theorem removeIncidents_spans :
    Spans env (removeIncidents module ts env) (ts.foldl (removeTicket module) env) := by
  induction ts generalizing env with
  | nil => exact rfl
  | cons x ts ih => exact ⟨rfl, ih⟩

/-- What nobody refers to is not removed by force. -/
theorem removeIncidents_spares (hb : env.broker.WellFormed)
    (hshut : ∀ u, env.broker.usage? t = some u → u.retired = true ∧ u.outstanding = 0) :
    ∀ d ∈ removeIncidents module ts env, d.Spares t := by
  induction ts generalizing env with
  | nil => simp [removeIncidents]
  | cons x ts ih =>
      have hscene : (env.removeTicket module x).scene [] = _ := removeTicket_scene
      have hbroker : (env.removeTicket module x).broker = (env.broker.forceRemove x).2 :=
        congrArg Scene.broker hscene
      have hr := hb.forceRemove (t := x)
      have husage : (env.removeTicket module x).broker.usage? t =
          if t = x then none else env.broker.usage? t := by
        rw [hbroker, hr.usage?]
        simp only [List.mem_singleton]
      intro d hd
      rcases List.mem_cons.mp hd with rfl | hd
      · have hslots : (env.removeTicket module x).slots = env.slots := congrArg Scene.slots hscene
        refine ⟨hshut, by simp [Incident.obtained], fun y hy _ => hslots ▸ hy, fun hp => ?_⟩
        by_cases hx : t = x
        · subst hx
          obtain ⟨u, hu⟩ := Option.isSome_iff_exists.mp hp
          have hw : env.broker.withdraw t = _ := hb.withdraw_idle hu (hshut u hu).2
          refine Or.inr (.removed ?_)
          simp only [removeTicket, withdrawTicket, hw, Except.map]
        · have hleft : ((env.removeTicket module x).broker.usage? t).isSome := by
            rw [husage, if_neg hx]
            exact hp
          exact Or.inl hleft
      · refine ih (by rw [hbroker]; exact hr.wellFormed) (fun u hu => ?_) d hd
        rw [husage] at hu
        split at hu
        · simp at hu
        · exact hshut u hu

end Environment

/-! ## Taking down -/

namespace Member

variable {m : Member} {ms : List Member} {hook : Hook} {p : Nat → Prop}

/-- What happens while a hook of a member runs. -/
def hookIncidents (m : Member) (hook : Hook) (env : Environment) : List Incident :=
  Environment.runIncidents m.actor hook (m.body.hooks.of hook)
    ((env.note (.began m.actor hook)).mark (.began m.actor hook))

/-- What happens while a member is taken down. -/
def teardownIncidents (m : Member) (env : Environment) : List Incident :=
  let removed := env.removeRegistrations m.actor
  .clear env m.actor.member ::
    (Environment.removeIncidents m.name (env.ticketsOf m.actor.member).reverse
        (env.clearRecords m.actor.member)
      ++ m.hookIncidents .unload removed ++ [.leave (m.runReported .unload removed) m])

theorem hookIncidents_spans : Spans e (m.hookIncidents hook e) (m.runReported hook e) := by
  let begun := (e.note (.began m.actor hook)).mark (.began m.actor hook)
  have hspans : Spans begun (m.hookIncidents hook e)
      (Environment.run m.actor hook (m.body.hooks.of hook) begun).2 :=
    Environment.runIncidents_spans _
  have hbegun : begun.scene [] = e.scene [] := rfl
  refine (hspans.congr_left hbegun).congr_right ?_
  rw [runReported]
  cases (e.runHook m.actor m.body.hooks hook).1 <;> rfl

theorem hookIncidents_spares (hs : e.Sound gone) (hm : m.actor.member < e.nextMember)
    (ht : t ∈ gone) : ∀ d ∈ m.hookIncidents hook e, d.Spares t := by
  have hbegun : ((e.note (.began m.actor hook)).mark (.began m.actor hook)).Sound gone := hs.same rfl
  exact Environment.runIncidents_spares hbegun hm ht _

theorem giveUpAll_congr {hs : List Hold} (h : e'.scene [] = e.scene []) :
    (e'.giveUpAll hs).scene [] = (e.giveUpAll hs).scene [] := by
  induction hs generalizing e e' with
  | nil => exact h
  | cons x hs ih =>
      refine ih ?_
      rw [Environment.giveUp_scene, Environment.giveUp_scene, h,
        show e'.broker = e.broker from congrArg Scene.broker h]

theorem leave_congr (h : e'.scene [] = e.scene []) : (m.leave e').scene [] = (m.leave e).scene [] := by
  let isOwn (x : SlotKey × Hold) : Bool := x.1.home = .member m.actor.member
  let emptied (s : Scene) : Scene := { s with slots := e.slots.filter fun x => !isOwn x }
  have hslots : e'.slots = e.slots := congrArg Scene.slots h
  have hdrop : (m.dropInstance e').scene [] = (m.dropInstance e).scene [] := by
    simp only [dropInstance, Environment.emptySlots, Environment.note, Environment.mark, hslots]
    exact giveUpAll_congr (congrArg emptied h)
  exact congrArg (fun s : Scene => { s with dossiers := detachIn s.dossiers m.actor.member }) hdrop

theorem teardown_spans (hm : m.stage.mayBecome .unloaded = true) :
    Spans e (m.teardownIncidents e) (m.teardown e).2 := by
  obtain ⟨-, start, hstart, heq⟩ := @teardown_ok m e hm
  have hleave : Spans (m.runReported .unload (e.removeRegistrations m.actor))
      [.leave (m.runReported .unload (e.removeRegistrations m.actor)) m] (m.teardown e).2 := by
    rw [heq]
    exact ⟨rfl, leave_congr hstart⟩
  exact ⟨rfl, (Environment.removeIncidents_spans.append hookIncidents_spans).append hleave⟩

theorem leave_spares (hs : e.Sound gone) (ht : t ∈ gone) : (Incident.leave e m).Spares t where
  hidden := fun u hu => hs.shut ht hu
  unseen := by simp [Incident.obtained]
  unheld := fun x hx _ => by
    have hslots : (m.leave e).slots = e.slots.filter _ := Environment.aloof_slots.giveUpAll
    exact (List.mem_filter.mp (hslots ▸ hx)).1
  orderly := fun hp => by
    have hc : Course (fun _ => False) gone e (m.leave e) := (Course.refl hs).dropInstance.detach
    have hsame : (m.leave e).history = e.history := Environment.remote_history.emptySlots
    obtain ⟨-, hout, -⟩ := (hs.chronicled.present t).mp hp
    exact Or.inl (hc.usage?_isSome hs (fun _ hn => hn.elim) hp (hsame ▸ hout))

theorem teardown_spares (hs : e.Sound gone) (hm : m.actor.member < e.nextMember) (ht : t ∈ gone) :
    ∀ d ∈ m.teardownIncidents e, d.Spares t := by
  have hscene : (e.removeRegistrations m.actor).scene [] = _ :=
    Environment.removeRegistrations_scene
  have hremoved : (e.removeRegistrations m.actor).Sound gone :=
    ((Course.refl hs).clear (p := (· = m.actor.member)) rfl hscene).sound
  have hlt : m.actor.member < (e.removeRegistrations m.actor).nextMember :=
    Nat.lt_of_lt_of_eq hm (congrArg Scene.nextMember hscene).symm
  have hrun : (m.runReported .unload (e.removeRegistrations m.actor)).Sound gone :=
    (hremoved.moves runReported_moves (Scene.bounded_home hlt)).1
  intro d hd
  simp only [teardownIncidents, List.mem_cons, List.mem_append, List.not_mem_nil, or_false] at hd
  rcases hd with rfl | (hd | hd) | rfl
  · exact ⟨fun u hu => hs.shut ht hu, by simp [Incident.obtained], fun x hx _ => hx, Or.inl⟩
  · have hcleared : (e.clearRecords m.actor.member).broker = e.broker := rfl
    exact Environment.removeIncidents_spares (hcleared ▸ hs.wellFormed)
      (fun u hu => hs.shut ht (hcleared ▸ hu)) d hd
  · exact hookIncidents_spares hremoved hlt ht d hd
  · exact leave_spares hrun ht

end Member

/-- What happens while members are taken down from the environments in which their turns come. -/
def takeDownIncidents (xs : List (Member × Environment)) : List Incident :=
  xs.flatMap fun x => x.1.teardownIncidents x.2

theorem tearDownAll_spans {ms : List Member} (hms : ∀ m ∈ ms, m.stage.mayBecome .unloaded = true) :
    Spans e (takeDownIncidents (removals ms e)) (tearDownAll ms e).2.2 := by
  induction ms generalizing e with
  | nil => exact rfl
  | cons m ms ih =>
      have hm := hms m List.mem_cons_self
      have hok : (m.teardown e).1 = .ok () := (Member.teardown_ok hm).1
      simp only [removals, takeDownIncidents, List.flatMap_cons, tearDownAll, hok]
      exact (Member.teardown_spans hm).append (ih fun x hx => hms x (List.mem_cons_of_mem _ hx))

theorem tearDownAll_spares {ms : List Member} {p : Nat → Prop} (hs : e.Sound gone)
    (hms : Removable p e ms) (ht : t ∈ gone) :
    ∀ d ∈ takeDownIncidents (removals ms e), d.Spares t := by
  intro d hd
  obtain ⟨x, hx, hd⟩ := List.mem_flatMap.mp hd
  obtain ⟨hmem, hc⟩ := hs.removals hms x hx
  have hlt := Nat.lt_of_lt_of_le (hms x.1 hmem).2.1 hc.later
  exact Member.teardown_spares hc.sound hlt ht d hd

end Backplane
