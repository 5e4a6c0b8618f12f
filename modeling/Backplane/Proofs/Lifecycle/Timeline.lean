import Backplane.Proofs.Lifecycle.Moments
/-!
# `Backplane.Proofs.Lifecycle.Timeline`: the moments of each operation

The moments of an operation follow its own recursion: over the behaviour of a hook, over the deeds
of a preparation, over the members of a pass or of a batch.  Of each operation they are all that
happens in it.

Operations are those of the `ModuleLoader`.
-/
namespace Backplane

variable {e e' : Environment} {xs : List Moment} {m : Member} {ms done : List Member} {n batch : Nat}
  {p : PlannedModule} {plan : List PlannedModule}

/-! ## Hooks and preparations -/

/-- The moment at which somebody acts, if an incident is one. -/
def Incident.moment? : Incident → Option Moment
  | act env p a => some (.act env p a)
  | _ => none

/-- The moments of deeds that are carried out in order. -/
def Environment.deedMoments (member : Nat) : List Deed → Environment → List Moment
  | [], _ => []
  | d :: ds, env =>
    (deedIncidents member env d).filterMap Incident.moment?
      ++ deedMoments member ds (carryOut member env d).2

/-- The moments of a hook, up to its end. -/
def Member.hookMoments (m : Member) (hook : Hook) (env : Environment) : List Moment :=
  (m.hookIncidents hook env).filterMap Incident.moment?
    ++ [.rest (env.runHook m.actor m.body.hooks hook).2]

namespace Environment

theorem carryOut_unfolds (hn : n < e.nextMember) (d : Deed) :
    Unfolds e ((deedIncidents n e d).filterMap Incident.moment?) (carryOut n e d).2 := by
  cases d with
  | through name a =>
      rw [deedIncidents, carryOut]
      cases Keyed.get? e.kept name with
      | none => exact .refl e
      | some k => exact .act (p := ⟨.member n, .dossier k⟩) a (Scene.bounded_home hn)
  | direct owner a => exact .act (p := ⟨.member n, .owner owner⟩) a (Scene.bounded_home hn)
  | dropService ticket => exact .same rfl rfl fun _ _ h => h
  | dropDossier name => exact .same rfl rfl fun _ _ h => h

theorem carryOutAll_unfolds {ds : List Deed} (hn : n < e.nextMember) :
    Unfolds e (deedMoments n ds e) (e.carryOutAll n ds) := by
  induction ds generalizing e with
  | nil => exact .refl e
  | cons d ds ih =>
      have hfirst := carryOut_unfolds hn d
      exact hfirst.trans (ih (Nat.lt_of_lt_of_le hn hfirst.nextMember_le))

theorem run_unfolds {who : Actor} {hook : Hook} (b : Behaviour) (hn : who.member < e.nextMember) :
    Unfolds e ((runIncidents who hook b e).filterMap Incident.moment?) (run who hook b e).2 := by
  induction b generalizing e with
  | finish ending => exact .refl e
  | mention a reply next ih =>
      have hnoted : Unfolds e [] (e.note (.did who hook a reply)) := .same rfl rfl fun _ _ h => h
      exact hnoted.trans (ih hn)
  | perform a next ih =>
      have hfirst : Unfolds e [.act e (.member who.member) a] _ := .act a (Scene.bounded_home hn)
      exact hfirst.trans (ih _ (Nat.lt_of_lt_of_le hn hfirst.nextMember_le))
  | carryOut d next ih =>
      have hfirst := carryOut_unfolds hn d
      rw [runIncidents, List.filterMap_append]
      exact hfirst.trans (ih _ (Nat.lt_of_lt_of_le hn hfirst.nextMember_le))

/-- A turn by which nobody is built. -/
theorem mark_unfolds {t : Turn} (ht : ∀ who needs, .built who needs ≠ t) : Unfolds e [] (e.mark t) :=
  .same rfl rfl fun who needs h => by
    rcases List.mem_append.mp h with h | h
    · exact h
    · exact absurd (List.mem_singleton.mp h) (ht who needs)

end Environment

namespace Member

theorem runHook_unfolds {hook : Hook} (hm : m.actor.member < e.nextMember) :
    Unfolds e (m.hookMoments hook e) (e.runHook m.actor m.body.hooks hook).2 := by
  let begun := (e.note (.began m.actor hook)).mark (.began m.actor hook)
  have hnoted : Unfolds e [] (e.note (.began m.actor hook)) := .same rfl rfl fun _ _ h => h
  have hbegun : Unfolds e [] begun := hnoted.trans (Environment.mark_unfolds (by simp))
  let done := (Environment.run m.actor hook (m.body.hooks.of hook) begun).2
  have hrun : Unfolds begun ((m.hookIncidents hook e).filterMap Incident.moment?) done :=
    Environment.run_unfolds _ hm
  have hended : Unfolds done [] (e.runHook m.actor m.body.hooks hook).2 :=
    Environment.mark_unfolds (by simp)
  exact ((hbegun.trans hrun).andThen hended).trans (.rest _)

theorem runReported_unfolds {hook : Hook} (hm : m.actor.member < e.nextMember) :
    Unfolds e (m.hookMoments hook e) (m.runReported hook e) := by
  have hrun := @runHook_unfolds e m hook hm
  rw [runReported]
  cases (e.runHook m.actor m.body.hooks hook).1 with
  | none => exact hrun
  | some err => exact hrun.andThen .report

theorem advance_unfolds {next : Stage} {x : Member × Environment} (h : m.advance next e = .ok x) :
    Unfolds e [] x.2 ∧ x.1 = { m with stage := next } := by
  rw [advance] at h
  split at h
  · obtain rfl := Except.ok.inj h
    exact ⟨.report, rfl⟩
  · simp at h

/-! ## Leaving -/

theorem dropInstance_unfolds : Unfolds e [] (m.dropInstance e) := by
  have hnoted : Unfolds e [] (e.note (.dropped m.actor)) := .same rfl rfl fun _ _ h => h
  exact (hnoted.trans (Environment.mark_unfolds (by simp))).trans (.emptySlots _ _)

theorem leave_unfolds : Unfolds e [] (m.leave e) := dropInstance_unfolds.trans (.detach _ m)

/-- The environment in which a member that is discarded has been dropped. -/
def discarded (m : Member) (env : Environment) : Environment :=
  m.dropInstance <| match m.advance .unloaded env with
    | .ok x => x.2
    | .error _ => env

def discardMoments (m : Member) (env : Environment) : List Moment :=
  [.remove (m.discarded env) m.actor]

theorem discardReported_unfolds : Unfolds e (m.discardMoments e) (m.discardReported e) := by
  have hremove : Unfolds (m.discarded e) (m.discardMoments e)
      ((m.discarded e).forceRemoveRegistrations m.actor) :=
    .remove Environment.forceRemoveRegistrations_scene
      (Prod.mk.inj Environment.inert_annals.forceRemoveRegistrations).1
      Environment.aloof_services.forceRemoveRegistrations
  have hdropped : Unfolds e [] (m.discarded e) := by
    rw [discarded]
    cases hadv : m.advance .unloaded e with
    | error err => exact dropInstance_unfolds
    | ok x => exact (advance_unfolds hadv).1.trans dropInstance_unfolds
  have hlast : Unfolds e (m.discardMoments e) (m.discard e).2 :=
    ((hdropped.trans hremove).andThen .report).andThen (.detach _ m)
  rw [discardReported]
  cases (m.discard e).1 with
  | ok _ => exact hlast
  | error err => exact hlast.andThen .report

/-! ## One member -/

def loadMoments (m : Member) (env : Environment) : List Moment :=
  match m.advance .loading env with
  | .error _ => []
  | .ok (m₁, env₁) =>
    let r := env₁.runHook m₁.actor m₁.body.hooks .load
    m₁.hookMoments .load env₁ ++ match r.1 with
      | some _ => m₁.discardMoments r.2
      | none => []

theorem load_unfolds (hm : m.actor.member < e.nextMember) :
    Unfolds e (m.loadMoments e) (m.load e).2 := by
  rw [load, loadMoments]
  cases hfirst : m.advance .loading e with
  | error err => exact leave_unfolds
  | ok x =>
      obtain ⟨hbegun, hx⟩ := advance_unfolds hfirst
      have hlt : x.1.actor.member < x.2.nextMember :=
        Nat.lt_of_lt_of_le (by rw [hx]; exact hm) hbegun.nextMember_le
      have hrun : Unfolds e (x.1.hookMoments .load x.2) _ := hbegun.trans (runHook_unfolds hlt)
      simp only
      cases (x.2.runHook x.1.actor x.1.body.hooks .load).1 with
      | some err => exact hrun.trans discardReported_unfolds
      | none =>
          simp only [List.append_nil]
          cases hlast : x.1.advance .loaded (x.2.runHook x.1.actor x.1.body.hooks .load).2 with
          | error err => exact hrun.andThen leave_unfolds
          | ok y => exact (hrun.andThen (advance_unfolds hlast).1).andThen .report

def preUnloadMoments (m : Member) (env : Environment) : List Moment :=
  match m.advance .preUnloading env with
  | .error _ => []
  | .ok (m₁, env₁) => m₁.hookMoments .preUnload env₁

theorem preUnload_unfolds (hm : m.actor.member < e.nextMember) :
    Unfolds e (m.preUnloadMoments e) (m.preUnload e).2.2 := by
  rw [preUnload, preUnloadMoments]
  cases hfirst : m.advance .preUnloading e with
  | error err => exact .refl e
  | ok x =>
      obtain ⟨hbegun, hx⟩ := advance_unfolds hfirst
      have hlt : x.1.actor.member < x.2.nextMember :=
        Nat.lt_of_lt_of_le (by rw [hx]; exact hm) hbegun.nextMember_le
      have hrun : Unfolds e (x.1.hookMoments .preUnload x.2) _ :=
        hbegun.trans (runReported_unfolds hlt)
      simp only
      cases hlast : x.1.advance .preUnloaded (x.1.runReported .preUnload x.2) with
      | error err => exact hrun
      | ok y => exact hrun.andThen (advance_unfolds hlast).1

theorem preUnload_actor : (m.preUnload e).2.1.actor = m.actor := by
  rw [preUnload]
  cases hfirst : m.advance .preUnloading e with
  | error err => rfl
  | ok x =>
      have hx : x.1.actor = m.actor := by rw [(advance_unfolds hfirst).2]
      simp only
      cases hlast : x.1.advance .preUnloaded (x.1.runReported .preUnload x.2) with
      | error err => exact hx
      | ok y =>
          simp only
          rw [(advance_unfolds hlast).2]
          exact hx

def teardownMoments (m : Member) (env : Environment) : List Moment :=
  .remove env m.actor :: m.hookMoments .unload (env.removeRegistrations m.actor)

theorem teardown_unfolds (hm : m.actor.member < e.nextMember) :
    Unfolds e (m.teardownMoments e) (m.teardown e).2 := by
  have hremove : Unfolds e [.remove e m.actor] (e.removeRegistrations m.actor) :=
    .remove Environment.removeRegistrations_scene
      (Prod.mk.inj Environment.inert_annals.removeRegistrations).1
      Environment.aloof_services.removeRegistrations
  have hrun : Unfolds e (m.teardownMoments e)
      (m.runReported .unload (e.removeRegistrations m.actor)) :=
    hremove.trans (runReported_unfolds (Nat.lt_of_lt_of_le hm hremove.nextMember_le))
  rw [teardown]
  cases hadv : m.advance .unloaded (m.runReported .unload (e.removeRegistrations m.actor)) with
  | error err => exact hrun.andThen leave_unfolds
  | ok x => exact ((hrun.andThen (advance_unfolds hadv).1).andThen .report).andThen leave_unfolds

end Member

/-! ## A batch -/

/-- A member as it is when its module has been built. -/
def PlannedModule.newcomer (p : PlannedModule) (batch : Nat) (env : Environment) (body : Instance) :
    Member :=
  { actor := (p.begin env).1, body, unit := p.unit.reference, batch, dependencies := p.dependencies }

/-- The environment in which a module's preparations have been made. -/
def PlannedModule.prepared (p : PlannedModule) (env : Environment) : Environment :=
  (p.begin env).2.carryOutAll env.nextMember p.blueprint.preparations

/-- The environment in which an instance has its dossier. -/
def PlannedModule.installed (p : PlannedModule) (env : Environment) (body : Instance) : Environment :=
  ((p.checkName body (p.prepared env)).mark (.built (p.begin env).1 p.dependencies)).openDossier
    (p.begin env).1 p.unit.isDynamic

def PlannedModule.loadMoments (p : PlannedModule) (batch : Nat) (env : Environment) : List Moment :=
  Environment.deedMoments env.nextMember p.blueprint.preparations (p.begin env).2 ++
    match p.blueprint.construction.result with
    | .error _ => []
    | .ok body => (p.newcomer batch env body).loadMoments (p.installed env body)

def unwindMoments : List Member → Environment → List Moment
  | [], _ => []
  | m :: ms, env =>
    let warned := env.report .warn .loader ("Unwinding module " ++ m.name)
    m.discardMoments warned ++ unwindMoments ms (m.discardReported warned)

def loadAllMoments (batch : Nat) : List PlannedModule → List Member → Environment → List Moment
  | [], _, _ => []
  | p :: rest, done, env =>
    let r := p.load batch env
    p.loadMoments batch env ++ match r.1 with
      | .ok m => loadAllMoments batch rest (done ++ [m]) r.2
      | .error e =>
        unwindMoments done.reverse
          (r.2.report .error .loader ("❌ Module " ++ p.name ++ " failed to load: " ++ e.message))

theorem PlannedModule.load_unfolds (he : e.Stands) :
    Unfolds e (p.loadMoments batch e) (p.load batch e).2 := by
  have hlt : e.nextMember < (p.begin e).2.nextMember := Nat.lt_succ_self _
  have hprepared : Unfolds e _ (p.prepared e) :=
    (Unfolds.begin e p).trans (Environment.carryOutAll_unfolds hlt)
  have hnext : (p.prepared e).nextMember = e.nextMember + 1 :=
    (Prod.mk.inj Environment.carryOutAll_annals).2
  rw [PlannedModule.load, PlannedModule.loadMoments]
  cases p.blueprint.construction.result with
  | error err =>
      simp only [List.append_nil]
      exact hprepared.andThen (.emptySlots _ _)
  | ok body =>
      have hchecked : Unfolds (p.prepared e) [] (p.checkName body (p.prepared e)) := by
        rw [PlannedModule.checkName]
        split
        · exact .refl _
        · exact .report
      -- everybody who has a dossier has a lower number
      have hnew : e.nextMember ∉ (p.checkName body (p.prepared e)).dossiers.map (·.member) := by
        have hsame : (p.checkName body (p.prepared e)).dossiers = (p.prepared e).dossiers := by
          rw [PlannedModule.checkName]
          split <;> rfl
        have hmoves : Moves (.member e.nextMember) ((p.begin e).2.scene []) ((p.prepared e).scene []) :=
          Environment.carryOutAll_moves
        obtain ⟨gone, hs⟩ := he
        have hbegun : (p.begin e).2.Sound gone := hs.renumber
        have hmembers := (hbegun.moves hmoves (Scene.bounded_home hlt)).2.members
        rw [hsame, show (p.prepared e).dossiers.map (·.member) = e.dossiers.map (·.member) from
          hmembers]
        intro hn
        obtain ⟨d, hd, heq⟩ := List.mem_map.mp hn
        exact Nat.lt_irrefl _ (heq ▸ hs.chronicled.numbered d hd)
      have hroom : e.nextMember < (p.checkName body (p.prepared e)).nextMember :=
        Nat.lt_of_lt_of_le (hnext ▸ Nat.lt_succ_self _) hchecked.nextMember_le
      have hjoined : Unfolds (p.checkName body (p.prepared e)) [] (p.installed e body) :=
        .join _ _ hnew hroom
      have hinstalled := (hprepared.andThen hchecked).andThen hjoined
      exact hinstalled.trans (Member.load_unfolds (m := p.newcomer batch e body) hroom)

theorem unwind_unfolds : Unfolds e (unwindMoments ms e) (unwind e ms) := by
  induction ms generalizing e with
  | nil => exact .refl e
  | cons m ms ih => exact (Unfolds.report.trans Member.discardReported_unfolds).trans ih

theorem loadAll_unfolds (he : e.Stands) :
    Unfolds e (loadAllMoments batch plan done e) (loadAll batch plan done e).2 := by
  induction plan generalizing done e with
  | nil => exact .refl e
  | cons p plan ih =>
      have hone : Unfolds e (p.loadMoments batch e) (p.load batch e).2 := p.load_unfolds he
      rw [loadAll, loadAllMoments]
      cases (p.load batch e).1 with
      | ok m => exact hone.trans (ih (hone.stands he).2)
      | error err => exact (hone.andThen .report).trans unwind_unfolds

/-! ## Passes -/

def attachMoments : List Member → Environment → List Moment
  | [], _ => []
  | m :: rest, env =>
    if m.stage = .loaded then
      m.hookMoments .postLoad env ++ match m.advance .postLoaded (m.runReported .postLoad env) with
        | .error _ => []
        | .ok x => attachMoments rest x.2
    else attachMoments rest env

def detachMoments : List Member → Environment → List Moment
  | [], _ => []
  | m :: rest, env =>
    if m.stage = .postLoaded then
      m.preUnloadMoments env ++ match (m.preUnload env).1 with
        | .error _ => []
        | .ok () => detachMoments rest (m.preUnload env).2.2
    else detachMoments rest env

/-- Whether the numbers of members have been given to instances. -/
abbrev Issued (e : Environment) (ms : List Member) : Prop := ∀ m ∈ ms, m.actor.member < e.nextMember

theorem Issued.tail (h : Issued e (m :: ms)) (hle : e.nextMember ≤ e'.nextMember) : Issued e' ms :=
  fun x hx => Nat.lt_of_lt_of_le (h x (List.mem_cons_of_mem _ hx)) hle

theorem attachAll_unfolds (hms : Issued e ms) :
    Unfolds e (attachMoments ms e) (attachAll ms e).2.2 := by
  induction ms generalizing e with
  | nil => exact .refl e
  | cons m ms ih =>
      rw [attachAll, attachMoments]
      split
      · have hrun : Unfolds e (m.hookMoments .postLoad e) (m.runReported .postLoad e) :=
          Member.runReported_unfolds (hms m List.mem_cons_self)
        simp only
        cases hadv : m.advance .postLoaded (m.runReported .postLoad e) with
        | error err =>
            simp only [List.append_nil]
            exact hrun
        | ok x =>
            have hone := hrun.andThen (Member.advance_unfolds hadv).1
            exact hone.trans (ih (hms.tail hone.nextMember_le))
      · exact ih (hms.tail (Nat.le_refl _))

theorem detachAll_unfolds (hms : Issued e ms) :
    Unfolds e (detachMoments ms e) (detachAll ms e).2.2 := by
  induction ms generalizing e with
  | nil => exact .refl e
  | cons m ms ih =>
      rw [detachAll, detachMoments]
      split
      · have hone := Member.preUnload_unfolds (hms m List.mem_cons_self)
        simp only
        cases (m.preUnload e).1 with
        | error err =>
            simp only [List.append_nil]
            exact hone
        | ok _ => exact hone.trans (ih (hms.tail hone.nextMember_le))
      · exact ih (hms.tail (Nat.le_refl _))

/-! ## Retiring and taking down -/

def retireMoments : List Member → Environment → List Moment
  | [], _ => []
  | m :: rest, env =>
    .retire env m.actor :: match (env.retireRegistrations m.actor).1 with
      | none => retireMoments rest (env.retireRegistrations m.actor).2
      | some _ => []

def tearDownMoments : List Member → Environment → List Moment
  | [], _ => []
  | m :: rest, env =>
    m.teardownMoments env ++ match (m.teardown env).1 with
      | .error _ => []
      | .ok () => tearDownMoments rest (m.teardown env).2

theorem retireMembers_unfolds (h : (retireMembers done ms e).1 = none) :
    Unfolds e (retireMoments ms e) (retireMembers done ms e).2 := by
  induction ms generalizing done e with
  | nil => exact .refl e
  | cons m ms ih =>
      rw [retireMembers] at h ⊢
      rw [retireMoments]
      cases hr : (e.retireRegistrations m.actor).1 with
      | some y => simp [hr] at h
      | none =>
          simp only [hr] at h ⊢
          exact (Unfolds.retire hr).trans (ih h)

/-- A refusal takes back what was done before it. -/
theorem retireMembers_refused {e₀ : Environment} {x : Member × Capability × Nat}
    (h : (retireMembers done ms e).1 = some x) (hpast : Unfolds e₀ xs e)
    (hscene : e'.scene [] = e₀.scene []) (hturns : e'.turns = e₀.turns)
    (hservices : e'.services = e₀.services) : Unfolds e₀ (xs ++ retireMoments ms e) e' := by
  induction ms generalizing done e xs with
  | nil => simp [retireMembers] at h
  | cons m ms ih =>
      rw [retireMembers] at h
      rw [retireMoments]
      cases hr : (e.retireRegistrations m.actor).1 with
      | some y => exact hpast.refuse (by simp [hr]) hscene hturns hservices
      | none =>
          simp only [hr] at h ⊢
          rw [List.append_cons]
          exact ih h (hpast.trans (.retire hr))

theorem tearDownAll_unfolds (hms : Issued e ms) :
    Unfolds e (tearDownMoments ms e) (tearDownAll ms e).2.2 := by
  induction ms generalizing e with
  | nil => exact .refl e
  | cons m ms ih =>
      have hone := Member.teardown_unfolds (hms m List.mem_cons_self)
      rw [tearDownAll, tearDownMoments]
      simp only
      cases (m.teardown e).1 with
      | error err =>
          simp only [List.append_nil]
          exact hone
      | ok _ => exact hone.trans (ih (hms.tail hone.nextMember_le))

end Backplane
