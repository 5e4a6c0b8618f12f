import Backplane.Lifecycle.Answer
import Backplane.Proofs.Environment.Outline
import Backplane.Proofs.Lifecycle.Member
import Backplane.Proofs.Plan.Outline
/-!
# `Backplane.Proofs.Lifecycle.Outline`: the lifecycle but for how hooks end

An operation does the same to modules and to their outlines.  It goes by names, stages, needs and
registrations; how a hook has ended is only reported, except that a module whose hook on loading has
failed is not loaded, and what it failed with is what the operation fails with.

Operations are those of the `ModuleLoader`.
-/
namespace Backplane

variable {g : ModuleError → ModuleError} {e e' : Environment}

/-! ## Registrations taken together -/

namespace Environment.Outlines

variable {who : Actor} {module : String}

theorem ticketsOf (he : Outlines g e e') {member : Nat} : e'.ticketsOf member = e.ticketsOf member := by
  simp only [Environment.ticketsOf, he.dossier?]

theorem restoreAll (he : Outlines g e e') {ts : List Ticket} :
    Outlines g (e.restoreAll ts) (e'.restoreAll ts) :=
  { he with broker := congrArg (ts.foldl Broker.restore) he.broker }

theorem retireAll (he : Outlines g e e') {done ts : List Ticket} :
    Repeats g (Environment.retireAll module done ts e) (Environment.retireAll module done ts e') := by
  induction ts generalizing done e e' with
  | nil => exact ⟨rfl, he⟩
  | cons t ts ih =>
      simp only [Environment.retireAll, he.broker]
      cases e.broker.retire t with
      | ok b => exact ih he.withBroker
      | error error =>
          cases error with
          | busy c refs => exact ⟨rfl, he.restoreAll⟩
          | _ => exact ih he.report

theorem retireRegistrations (he : Outlines g e e') :
    Repeats g (e.retireRegistrations who) (e'.retireRegistrations who) := by
  simp only [Environment.retireRegistrations, he.ticketsOf]
  exact he.retireAll

theorem restoreRegistrations (he : Outlines g e e') :
    Outlines g (e.restoreRegistrations who) (e'.restoreRegistrations who) := by
  simp only [Environment.restoreRegistrations, he.ticketsOf]
  exact he.restoreAll

theorem forceRemove (he : Outlines g e e') {t : Ticket} :
    Outlines g (Environment.forceRemove module e t) (Environment.forceRemove module e' t) := by
  simp only [Environment.forceRemove, he.broker]
  rcases (e.broker.forceRemove t).1 with _ | _ | refs
  · exact he.withBroker
  · exact he.withBroker
  · exact he.withBroker.report

theorem removeTicket (he : Outlines g e e') {t : Ticket} :
    Outlines g (Environment.removeTicket module e t) (Environment.removeTicket module e' t) := by
  simp only [Environment.removeTicket]
  rcases he.withdrawTicket (t := t) with ⟨error, h, h'⟩ | ⟨after, after', h, h', hafter⟩
  · simp only [h, h']
    exact he.report.forceRemove
  · simp only [h, h']
    exact hafter

theorem clearRecords (he : Outlines g e e') {member : Nat} :
    Outlines g (e.clearRecords member) (e'.clearRecords member) := by
  simp only [Environment.clearRecords, he.ticketsOf, he.history]
  exact { he.changeDossier with history := rfl }

theorem removeRegistrations (he : Outlines g e e') :
    Outlines g (e.removeRegistrations who) (e'.removeRegistrations who) := by
  simp only [Environment.removeRegistrations, he.ticketsOf]
  exact he.clearRecords.foldl fun _ he => he.removeTicket

theorem forceRemoveRegistrations (he : Outlines g e e') :
    Outlines g (e.forceRemoveRegistrations who) (e'.forceRemoveRegistrations who) := by
  simp only [Environment.forceRemoveRegistrations, he.ticketsOf]
  exact he.clearRecords.foldl fun _ he => he.forceRemove

end Environment.Outlines

/-! ## Members -/

def Member.outline (g : ModuleError → ModuleError) (m : Member) : Member :=
  { m with body := m.body.outline g }

/-- How an operation fails in outline. -/
def LifecycleError.outline (g : ModuleError → ModuleError) : LifecycleError → LifecycleError
  | .load module error => .load module (g error)
  | error => error

/-- Whether what is done to members, in an environment, and to their outlines, in its outline, ends in
the same way and leaves members and their outlines. -/
structure Environment.Handles {α μ : Type} (g : ModuleError → ModuleError) (f : μ → μ)
    (x x' : Except LifecycleError α × μ × Environment) : Prop where
  result : x'.1 = x.1.mapError (LifecycleError.outline g)
  left : x'.2.1 = f x.2.1
  env : Outlines g x.2.2 x'.2.2

namespace Environment.Outlines

variable {m : Member} {hook : Hook}

theorem advances (he : Outlines g e e') {m : Member} {s : Stage} (hmay : m.stage.mayBecome s = true) :
    ∃ after after', m.advance s e = .ok ({ m with stage := s }, after) ∧
      (m.outline g).advance s e' = .ok (({ m with stage := s } : Member).outline g, after') ∧
      Outlines g after after' :=
  ⟨_, _, if_pos hmay, if_pos hmay, he.report⟩

/-- A member and its outline move on to the same stages. -/
theorem advance (he : Outlines g e e') (m : Member) (s : Stage) :
    (m.advance s e = .error (.invalidTransition m.name m.stage s) ∧
        (m.outline g).advance s e' = .error (.invalidTransition m.name m.stage s)) ∨
      ∃ after after', m.advance s e = .ok ({ m with stage := s }, after) ∧
        (m.outline g).advance s e' = .ok (({ m with stage := s } : Member).outline g, after') ∧
        Outlines g after after' := by
  by_cases hmay : m.stage.mayBecome s = true
  · exact .inr (he.advances hmay)
  · exact .inl ⟨if_neg hmay, if_neg hmay⟩

/-- However the hook ends, that is only reported. -/
theorem runReported (he : Outlines g e e') :
    Outlines g (m.runReported hook e) ((m.outline g).runReported hook e') := by
  have hrun : Outlines g (e.runHook m.actor m.body.hooks hook).2
      (e'.runHook (m.outline g).actor (m.outline g).body.hooks hook).2 := he.runHook.2
  simp only [Member.runReported]
  split <;> split <;> exact hrun.relog

theorem dropInstance (he : Outlines g e e') :
    Outlines g (m.dropInstance e) ((m.outline g).dropInstance e') :=
  (he.note.mark (t := .dropped m.actor)).emptySlots

theorem detach (he : Outlines g e e') : Outlines g (m.detach e) ((m.outline g).detach e') :=
  he.changeDossier

theorem leave (he : Outlines g e e') : Outlines g (m.leave e) ((m.outline g).leave e') :=
  he.dropInstance.detach

theorem discardReported (he : Outlines g e e') :
    Outlines g (m.discardReported e) ((m.outline g).discardReported e') := by
  obtain ⟨log, last, h⟩ := @Member.discardReported_eq m e
  obtain ⟨log', last', h'⟩ := @Member.discardReported_eq (m.outline g) e'
  rw [h, h']
  have hstart : Outlines g { e with log } { e' with log := log' } := he.relog
  exact hstart.dropInstance.forceRemoveRegistrations.detach.relog

/-- The hook before unloading stops nothing. -/
theorem preUnload (he : Outlines g e e') :
    Handles g (Member.outline g) (m.preUnload e) ((m.outline g).preUnload e') := by
  simp only [Member.preUnload]
  rcases he.advance m .preUnloading with ⟨h, h'⟩ | ⟨after, after', h, h', hafter⟩
  · rw [h, h']
    exact ⟨rfl, rfl, he⟩
  · have hrun : Outlines g
        (({ m with stage := .preUnloading } : Member).runReported .preUnload after) _ :=
      hafter.runReported
    rw [h, h']
    rcases hrun.advance { m with stage := .preUnloading } .preUnloaded with
      ⟨k, k'⟩ | ⟨last, last', k, k', hlast⟩
    · simp only [k, k']
      exact ⟨rfl, rfl, hrun⟩
    · simp only [k, k']
      exact ⟨rfl, rfl, hlast⟩

/-- Nor does the hook on unloading. -/
theorem teardown (he : Outlines g e e') :
    ((m.outline g).teardown e').1 = (m.teardown e).1.mapError (LifecycleError.outline g) ∧
      Outlines g (m.teardown e).2 ((m.outline g).teardown e').2 := by
  have hrun : Outlines g (m.runReported .unload (e.removeRegistrations m.actor))
      ((m.outline g).runReported .unload (e'.removeRegistrations (m.outline g).actor)) :=
    he.removeRegistrations.runReported
  simp only [Member.teardown]
  rcases hrun.advance m .unloaded with ⟨h, h'⟩ | ⟨after, after', h, h', hafter⟩
  · rw [h, h']
    exact ⟨rfl, hrun.leave⟩
  · rw [h, h']
    exact ⟨rfl, hafter.report.leave⟩

end Environment.Outlines

/-! ## Loading -/

namespace Environment.Outlines

variable {m : Member} {p : PlannedModule} (batch : Nat)

/-- A module whose hook on loading fails is loaded in neither environment. -/
theorem load (he : Outlines g e e') (hm : m.stage = .unloaded) :
    ((m.outline g).load e').1 = ((m.load e).1.map (Member.outline g)).mapError g ∧
      Outlines g (m.load e).2 ((m.outline g).load e').2 := by
  have hfirst : m.stage.mayBecome .loading = true := by
    rw [hm]
    rfl
  obtain ⟨begun, begun', h, h', hbegun⟩ := he.advances hfirst
  obtain ⟨m₁, hm₁⟩ : ∃ m₁ : Member, m₁ = { m with stage := .loading } := ⟨_, rfl⟩
  rw [← hm₁] at h h'
  have hfailure : (begun'.runHook (m₁.outline g).actor (m₁.outline g).body.hooks .load).1 =
      (begun.runHook m₁.actor m₁.body.hooks .load).1.map g := hbegun.runHook.1
  have hrun : Outlines g (begun.runHook m₁.actor m₁.body.hooks .load).2
      (begun'.runHook (m₁.outline g).actor (m₁.outline g).body.hooks .load).2 := hbegun.runHook.2
  cases hx : (begun.runHook m₁.actor m₁.body.hooks .load).1 with
  | some error =>
      rw [hx, Option.map_some] at hfailure
      simp only [Member.load, h, h', hx, hfailure]
      exact ⟨rfl, hrun.discardReported⟩
  | none =>
      rw [hx, Option.map_none] at hfailure
      have hsecond : m₁.stage.mayBecome .loaded = true := by
        rw [hm₁]
        rfl
      obtain ⟨last, last', k, k', hlast⟩ := hrun.advances hsecond
      simp only [Member.load, h, h', hx, hfailure, k, k']
      exact ⟨rfl, hlast.report⟩

theorem openDossier (he : Outlines g e e') {who : Actor} {quiet : Bool} :
    Outlines g (e.openDossier who quiet) (e'.openDossier who quiet) :=
  { he with dossiers := congrArg (· ++ [_]) he.dossiers }

theorem checkName (he : Outlines g e e') {body : Instance} :
    Outlines g (p.checkName body e) ((p.outline g).checkName (body.outline g) e') := by
  by_cases h : body.selfName = p.name
  · have h' : (body.outline g).selfName = (p.outline g).name := h
    rw [PlannedModule.checkName, PlannedModule.checkName, if_pos h, if_pos h']
    exact he
  · have h' : (body.outline g).selfName ≠ (p.outline g).name := h
    rw [PlannedModule.checkName, PlannedModule.checkName, if_neg h, if_neg h']
    exact he.report

theorem begin (he : Outlines g e e') : Repeats g (p.begin e) ((p.outline g).begin e') := by
  simp only [PlannedModule.begin, PlannedModule.outline, Blueprint.outline, he.nextMember]
  have hnumbered : Outlines g { e with nextMember := e.nextMember + 1 }
      { e' with nextMember := e.nextMember + 1 } := { he with nextMember := rfl }
  exact ⟨rfl, hnumbered.note⟩

theorem loadPlanned (he : Outlines g e e') :
    ((p.outline g).load batch e').1 = ((p.load batch e).1.map (Member.outline g)).mapError g ∧
      Outlines g (p.load batch e).2 ((p.outline g).load batch e').2 := by
  have hbegun : Repeats g (p.begin e) ((p.outline g).begin e') := he.begin
  have hbuilt : Outlines g
      ((p.begin e).2.carryOutAll (p.begin e).1.member p.blueprint.preparations)
      (((p.outline g).begin e').2.carryOutAll (p.begin e).1.member
        (p.outline g).blueprint.preparations) := hbegun.env.carryOutAll
  have hresult : (p.outline g).blueprint.construction.result =
      (p.blueprint.construction.result.map (Instance.outline g)).mapError g :=
    Construction.result_outline
  simp only [PlannedModule.load, hbegun.reply, hresult]
  cases p.blueprint.construction.result with
  | error error => exact ⟨rfl, hbuilt.emptySlots⟩
  | ok body =>
      have hchecked : Outlines g (p.checkName body _) ((p.outline g).checkName (body.outline g) _) :=
        hbuilt.checkName
      have hmarked := hchecked.mark (t := .built (p.begin e).1 p.dependencies)
      let m : Member :=
        { actor := (p.begin e).1, body, unit := p.unit.reference, batch, dependencies := p.dependencies }
      exact hmarked.openDossier.load (m := m) rfl

theorem unwind (he : Outlines g e e') {ms : List Member} :
    Outlines g (Backplane.unwind e ms) (Backplane.unwind e' (ms.map (Member.outline g))) := by
  rw [Backplane.unwind, Backplane.unwind, List.foldl_map]
  exact he.foldl fun _ he => he.report.discardReported

/-- A plan is loaded in both environments or in neither; in the latter case the same module fails. -/
theorem loadAll (he : Outlines g e e') (plan : List PlannedModule) (done : List Member) :
    (Backplane.loadAll batch (plan.map (PlannedModule.outline g)) (done.map (Member.outline g)) e').1 =
        ((Backplane.loadAll batch plan done e).1.map (List.map (Member.outline g))).mapError
          (LifecycleError.outline g) ∧
      Outlines g (Backplane.loadAll batch plan done e).2
        (Backplane.loadAll batch (plan.map (PlannedModule.outline g)) (done.map (Member.outline g)) e').2 := by
  induction plan generalizing done e e' with
  | nil => exact ⟨rfl, he⟩
  | cons p plan ih =>
      obtain ⟨hresult, hloaded⟩ := he.loadPlanned (p := p) batch
      simp only [List.map_cons, Backplane.loadAll, hresult]
      cases (p.load batch e).1 with
      | error error =>
          simp only [Except.map, Except.mapError, ← List.map_reverse]
          exact ⟨rfl, hloaded.relog.unwind⟩
      | ok m =>
          have hmore := ih hloaded (done ++ [m])
          rw [List.map_append] at hmore
          exact hmore

/-! ## Attaching and detaching -/

/-- However the hooks after loading end, the members move on, and the next one has its turn. -/
theorem attachAll (he : Outlines g e e') (ms : List Member) : Handles g (List.map (Member.outline g))
    (Backplane.attachAll ms e) (Backplane.attachAll (ms.map (Member.outline g)) e') := by
  induction ms generalizing e e' with
  | nil => exact ⟨rfl, rfl, he⟩
  | cons m ms ih =>
      by_cases hstage : m.stage = .loaded
      · have hstage' : (m.outline g).stage = .loaded := hstage
        simp only [List.map_cons, Backplane.attachAll, if_pos hstage, if_pos hstage']
        have hrun : Outlines g (m.runReported .postLoad e) ((m.outline g).runReported .postLoad e') :=
          he.runReported
        rcases hrun.advance m .postLoaded with ⟨h, h'⟩ | ⟨after, after', h, h', hafter⟩
        · simp only [h, h']
          exact ⟨rfl, rfl, hrun⟩
        · obtain ⟨hresult, hleft, henv⟩ := ih hafter
          simp only [h, h', hresult, hleft]
          refine ⟨?_, rfl, henv⟩
          cases (Backplane.attachAll ms after).1 <;> rfl
      · have hstage' : (m.outline g).stage ≠ .loaded := hstage
        obtain ⟨hresult, hleft, henv⟩ := ih he
        simp only [List.map_cons, Backplane.attachAll, if_neg hstage, if_neg hstage', hresult, hleft]
        exact ⟨rfl, rfl, henv⟩

/-- So it is with the hooks before unloading. -/
theorem detachAll (he : Outlines g e e') (ms : List Member) : Handles g (List.map (Member.outline g))
    (Backplane.detachAll ms e) (Backplane.detachAll (ms.map (Member.outline g)) e') := by
  induction ms generalizing e e' with
  | nil => exact ⟨rfl, rfl, he⟩
  | cons m ms ih =>
      by_cases hstage : m.stage = .postLoaded
      · have hstage' : (m.outline g).stage = .postLoaded := hstage
        obtain ⟨hone, hmoved, hafter⟩ := he.preUnload (m := m)
        simp only [List.map_cons, Backplane.detachAll, if_pos hstage, if_pos hstage', hone, hmoved]
        cases (m.preUnload e).1 with
        | error error => exact ⟨rfl, rfl, hafter⟩
        | ok _ =>
            obtain ⟨hresult, hleft, henv⟩ := ih hafter
            simp only [Except.mapError, hresult, hleft]
            refine ⟨?_, rfl, henv⟩
            cases (Backplane.detachAll ms (m.preUnload e).2.2).1 <;> rfl
      · have hstage' : (m.outline g).stage ≠ .postLoaded := hstage
        obtain ⟨hresult, hleft, henv⟩ := ih he
        simp only [List.map_cons, Backplane.detachAll, if_neg hstage, if_neg hstage', hresult, hleft]
        exact ⟨rfl, rfl, henv⟩

/-! ## Unloading -/

theorem retireMembers (he : Outlines g e e') (done ms : List Member) :
    (Backplane.retireMembers (done.map (Member.outline g)) (ms.map (Member.outline g)) e').1 =
        (Backplane.retireMembers done ms e).1.map (fun x => (x.1.outline g, x.2)) ∧
      Outlines g (Backplane.retireMembers done ms e).2
        (Backplane.retireMembers (done.map (Member.outline g)) (ms.map (Member.outline g)) e').2 := by
  induction ms generalizing done e e' with
  | nil => exact ⟨rfl, he⟩
  | cons m ms ih =>
      have hretired : Repeats g (e.retireRegistrations m.actor)
          (e'.retireRegistrations (m.outline g).actor) := he.retireRegistrations
      simp only [List.map_cons, Backplane.retireMembers, hretired.reply]
      cases (e.retireRegistrations m.actor).1 with
      | none =>
          have hmore := ih hretired.env (done ++ [m])
          rw [List.map_append] at hmore
          exact hmore
      | some x =>
          refine ⟨rfl, ?_⟩
          rw [List.foldl_map]
          exact hretired.env.foldl fun _ he => he.restoreRegistrations

theorem tearDownAll (he : Outlines g e e') (ms : List Member) : Handles g (List.map (Member.outline g))
    (Backplane.tearDownAll ms e) (Backplane.tearDownAll (ms.map (Member.outline g)) e') := by
  induction ms generalizing e e' with
  | nil => exact ⟨rfl, rfl, he⟩
  | cons m ms ih =>
      obtain ⟨hone, hafter⟩ := he.teardown (m := m)
      simp only [List.map_cons, Backplane.tearDownAll, hone]
      cases (m.teardown e).1 with
      | error error => exact ⟨rfl, rfl, hafter⟩
      | ok _ =>
          obtain ⟨hresult, hleft, henv⟩ := ih hafter
          simp only [Except.mapError, hresult, hleft]
          refine ⟨?_, rfl, henv⟩
          cases (Backplane.tearDownAll ms (m.teardown e).2).1 <;> rfl

end Environment.Outlines

end Backplane
