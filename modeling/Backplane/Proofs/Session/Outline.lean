import Backplane.Proofs.Lifecycle.Outline
import Backplane.Proofs.Session.Reachable
/-!
# `Backplane.Proofs.Session.Outline`: racks but for how hooks end

Whatever the host asks for is answered from a rack and from its outline in the same way, except that
a module that has failed to load has failed with something else; and what is left is a rack and its
outline again.

The rack is the `ModuleLoader`.
-/
namespace Backplane

variable {g : ModuleError → ModuleError} {r r' : Rack}

namespace Rack

/-- Whether a rack is the outline of another. -/
structure Outlines (g : ModuleError → ModuleError) (r r' : Rack) : Prop where
  env : r.env.Outlines g r'.env
  members : r'.members = r.members.map (Member.outline g)
  nextBatch : r'.nextBatch = r.nextBatch

/-- The outline of a rack, in which nothing has been reported. -/
def outline (g : ModuleError → ModuleError) (r : Rack) : Rack where
  env := r.env.outline g
  members := r.members.map (Member.outline g)
  nextBatch := r.nextBatch

theorem outlines_outline : r.Outlines g (r.outline g) :=
  ⟨Environment.outlines_outline, rfl, rfl⟩

/-- Whether an operation ends in the same way twice, but for what a module has failed with, and
leaves a rack and its outline. -/
structure Recurs {α : Type} (g : ModuleError → ModuleError) (x x' : Except LifecycleError α × Rack) :
    Prop where
  result : x'.1 = x.1.mapError (LifecycleError.outline g)
  rack : x.2.Outlines g x'.2

namespace Outlines

theorem outline_eq (hr : Outlines g r r') :
    r.outline g = { r' with env := { r'.env with log := [] } } := by
  rw [outline, hr.env.outline_eq, hr.members, hr.nextBatch]

theorem withEnv (hr : Outlines g r r') {e e' : Environment} (he : e.Outlines g e') :
    Outlines g { r with env := e } { r' with env := e' } :=
  { hr with env := he }

theorem names (hr : Outlines g r r') : r'.names = r.names := by
  rw [Rack.names, hr.members, List.map_map]
  rfl

theorem find? (hr : Outlines g r r') {name : String} :
    r'.find? name = (r.find? name).map (Member.outline g) := by
  rw [Rack.find?, hr.members, List.find?_map]
  rfl

theorem release (hr : Outlines g r r') {names : List String} :
    Outlines g (r.release names) (r'.release names) :=
  hr.withEnv { hr.env with claims := congrArg (unclaim · names) hr.env.claims }

theorem withClaims (hr : Outlines g r r') {claims : List String} :
    Outlines g (r.withClaims claims) (r'.withClaims claims) :=
  hr.withEnv { hr.env with claims := rfl }

theorem report (hr : Outlines g r r') {level : Level} {origin : Origin} {text : String} :
    Outlines g (r.mapEnv fun env => env.report level origin text)
      (r'.mapEnv fun env => env.report level origin text) :=
  hr.withEnv hr.env.report

theorem reverse (hr : Outlines g r r') :
    r'.members.reverse = r.members.reverse.map (Member.outline g) := by
  rw [hr.members, List.map_reverse]

/-! ## Loading -/

theorem loadBatch (hr : Outlines g r r') {plan : List PlannedModule} :
    Recurs g (r.loadBatch plan) (r'.loadBatch (plan.map (PlannedModule.outline g))) := by
  have hbegun : (r.beginBatch plan).Outlines g (r'.beginBatch (plan.map (PlannedModule.outline g))) :=
    hr.env.relog
  have hall := hbegun.loadAll r.nextBatch plan []
  rw [List.map_nil] at hall
  rw [loadBatch_eq, loadBatch_eq, hr.nextBatch, hr.members]
  cases hx : loadAll r.nextBatch plan [] (r.beginBatch plan) with
  | mk res env =>
      cases hx' : loadAll r.nextBatch (plan.map (PlannedModule.outline g)) [] (r'.beginBatch _) with
      | mk res' env' =>
          rw [hx, hx'] at hall
          obtain ⟨rfl, henv⟩ := hall
          cases res with
          | error error => exact ⟨rfl, henv, rfl, rfl⟩
          | ok members =>
              refine ⟨?_, henv.relog, List.map_append.symm, rfl⟩
              simp only [Except.map, Except.mapError, List.map_map]
              rfl

theorem plan (hr : Outlines g r r') {m : Manifest} :
    (r'.plan m).1 = (r.plan m).1.map (List.map (PlannedModule.outline g)) ∧
      Outlines g (r.plan m).2 (r'.plan m).2 := by
  obtain ⟨hresult, hdepot⟩ := Plan.make_outline (g := g) (d := r.env.depot) r.names m
  simp only [Rack.plan, hr.env.depot, hr.names]
  exact ⟨hresult, hr.withEnv { hr.env with depot := hdepot }⟩

theorem loadPlanned (hr : Outlines g r r') {m : Manifest} :
    Recurs g (r.loadPlanned m) (r'.loadPlanned m) := by
  obtain ⟨hresult, hplanned⟩ := hr.plan (m := m)
  simp only [Rack.loadPlanned, hresult]
  cases (r.plan m).1 with
  | error error => exact ⟨rfl, hplanned⟩
  | ok plan => exact hplanned.loadBatch

theorem loadManifest (hr : Outlines g r r') {m : Manifest} :
    Recurs g (r.loadManifest m) (r'.loadManifest m) := by
  simp only [Rack.loadManifest, hr.env.claims]
  cases (Claim.takeAll (m.modules.map (·.name)) { claims := r.env.claims }).1 with
  | error name => exact ⟨rfl, hr.withClaims⟩
  | ok _ => exact ⟨hr.withClaims.loadPlanned.result, hr.withClaims.loadPlanned.rack.release⟩

theorem load (hr : Outlines g r r') {source : Source} : Recurs g (r.load source) (r'.load source) := by
  simp only [Rack.load]
  cases source.read with
  | error error => exact ⟨rfl, hr⟩
  | ok m => exact (hr.withEnv hr.env.report).loadManifest

theorem add (hr : Outlines g r r') {name : String} {unit : Option String} :
    Recurs g (r.add name unit) (r'.add name unit) := by
  obtain ⟨hresult, hdone⟩ := hr.loadManifest (m := ⟨[{ name, unit }]⟩)
  refine ⟨?_, hdone⟩
  simp only [Rack.add, hresult]
  cases (r.loadManifest ⟨[{ name, unit }]⟩).1 <;> rfl

/-! ## Attaching and detaching -/

theorem settled {α : Type} {x x' : Except LifecycleError α × List Member × Environment}
    (hr : Outlines g r r') (h : Environment.Handles g (List.map (Member.outline g)) x x') :
    Outlines g { r with members := x.2.1, env := x.2.2 } { r' with members := x'.2.1, env := x'.2.2 } :=
  ⟨h.env, h.left, hr.nextBatch⟩

theorem settled_reverse {α : Type} {x x' : Except LifecycleError α × List Member × Environment}
    (hr : Outlines g r r') (h : Environment.Handles g (List.map (Member.outline g)) x x') :
    Outlines g { r with members := x.2.1.reverse, env := x.2.2 }
      { r' with members := x'.2.1.reverse, env := x'.2.2 } :=
  ⟨h.env, by simp only [h.left, List.map_reverse], hr.nextBatch⟩

theorem reportPass (hr : Outlines g r r') {pass : String} {x x' : Except LifecycleError Nat} :
    Outlines g (r.reportPass pass x) (r'.reportPass pass x') := by
  cases x <;> cases x' <;> exact hr.withEnv hr.env.relog

theorem postLoad (hr : Outlines g r r') : Recurs g r.postLoad r'.postLoad := by
  have hall := hr.env.attachAll r.members
  simp only [Rack.postLoad, hr.members]
  exact ⟨hall.result, (hr.settled hall).reportPass⟩

theorem preUnload (hr : Outlines g r r') : Recurs g r.preUnload r'.preUnload := by
  have hall := hr.env.detachAll r.members.reverse
  simp only [Rack.preUnload, hr.reverse]
  exact ⟨hall.result, (hr.settled_reverse hall).reportPass⟩

/-! ## Unloading -/

theorem tearDown (hr : Outlines g r r') : Recurs g r.tearDown r'.tearDown := by
  have hall := hr.env.tearDownAll r.members.reverse
  have hdone := hr.settled_reverse hall
  simp only [Rack.tearDown, hr.reverse, hall.result]
  cases (tearDownAll r.members.reverse r.env).1 with
  | error error => exact ⟨rfl, hdone⟩
  | ok names => exact ⟨rfl, hdone.withEnv hdone.env.report⟩

theorem retireAndTearDown (hr : Outlines g r r') :
    Recurs g r.retireAndTearDown r'.retireAndTearDown := by
  obtain ⟨hfound, henv⟩ := hr.env.retireMembers [] r.members.reverse
  simp only [List.map_nil] at hfound henv
  simp only [Rack.retireAndTearDown, hr.reverse, hfound]
  cases (retireMembers [] r.members.reverse r.env).1 with
  | none => exact (hr.withEnv henv).tearDown
  | some x => exact ⟨rfl, hr.withEnv henv.report⟩

theorem unloadAll (hr : Outlines g r r') : Recurs g r.unloadAll r'.unloadAll := by
  have hattached : r'.members.reverse.find? (fun m => m.stage = .postLoaded) =
      (r.members.reverse.find? fun m => m.stage = .postLoaded).map (Member.outline g) := by
    rw [hr.reverse, List.find?_map]
    rfl
  have hcount : r'.members.length = r.members.length := by rw [hr.members, List.length_map]
  simp only [Rack.unloadAll, hattached, hcount]
  cases r.members.reverse.find? fun m => m.stage = .postLoaded with
  | some m => exact ⟨rfl, hr.report⟩
  | none => exact hr.report.retireAndTearDown

theorem dependentsOf (hr : Outlines g r r') {name : String} :
    r'.dependentsOf name = r.dependentsOf name := by
  rw [Rack.dependentsOf, hr.members, List.filter_map, List.map_map]
  rfl

theorem replace {ms : List Member} {m : Member} :
    Rack.replace (ms.map (Member.outline g)) (m.outline g) =
      (Rack.replace ms m).map (Member.outline g) := by
  simp only [Rack.replace, List.map_map]
  refine List.map_congr_left fun x _ => ?_
  by_cases h : x.actor.member = m.actor.member
  · simp [Member.outline, h]
  · simp [Member.outline, h]

theorem without {ms : List Member} {m : Member} :
    Rack.without (ms.map (Member.outline g)) (m.outline g) =
      (Rack.without ms m).map (Member.outline g) := by
  rw [Rack.without, List.filter_map]
  rfl

theorem makeReady {e e' : Environment} (he : e.Outlines g e') {m : Member} :
    Environment.Handles g (Member.outline g) (m.makeReady e) ((m.outline g).makeReady e') := by
  by_cases hstage : m.stage = .postLoaded
  · have hstage' : (m.outline g).stage = .postLoaded := hstage
    rw [Member.makeReady, Member.makeReady, if_pos hstage, if_pos hstage']
    exact he.preUnload
  · have hstage' : (m.outline g).stage ≠ .postLoaded := hstage
    rw [Member.makeReady, Member.makeReady, if_neg hstage, if_neg hstage']
    exact ⟨rfl, rfl, he⟩

theorem takeOut (hr : Outlines g r r') {m : Member} :
    Recurs g (r.takeOut m) (r'.takeOut (m.outline g)) := by
  have hfold : ∀ (m : Member) (e : Environment),
      (if m.stage = .postLoaded then m.preUnload e else (.ok (), m, e)) = m.makeReady e :=
    fun _ _ => rfl
  have hready := makeReady hr.env (m := m)
  simp only [Rack.takeOut, hfold, hready.result, hready.left, hr.members, replace, without]
  cases (m.makeReady r.env).1 with
  | error error => exact ⟨rfl, hready.env, rfl, hr.nextBatch⟩
  | ok _ =>
      have hdone := hready.env.teardown (m := (m.makeReady r.env).2.1)
      exact ⟨hdone.1, hdone.2, rfl, hr.nextBatch⟩

theorem unloadMember (hr : Outlines g r r') {m : Member} :
    Recurs g (r.unloadMember m) (r'.unloadMember (m.outline g)) := by
  have hretired : Environment.Repeats g (r.env.retireRegistrations m.actor)
      (r'.env.retireRegistrations (m.outline g).actor) := hr.env.retireRegistrations
  simp only [Rack.unloadMember, hretired.reply]
  cases (r.env.retireRegistrations m.actor).1 with
  | none => exact (hr.withEnv hretired.env).takeOut
  | some x => exact ⟨rfl, hr.withEnv hretired.env.report⟩

theorem unloadNamed (hr : Outlines g r r') {name : String} :
    Recurs g (r.unloadNamed name) (r'.unloadNamed name) := by
  simp only [Rack.unloadNamed, hr.find?, hr.dependentsOf]
  cases r.find? name with
  | none => exact ⟨rfl, hr⟩
  | some m =>
      simp only [Option.map_some]
      cases r.dependentsOf name with
      | nil => exact hr.unloadMember
      | cons d ds => exact ⟨rfl, hr⟩

theorem unload (hr : Outlines g r r') {name : String} :
    Recurs g (r.unload name) (r'.unload name) := by
  simp only [Rack.unload, hr.env.claims]
  cases (Claim.takeAll [name] { claims := r.env.claims }).1 with
  | error other => exact ⟨rfl, hr.withClaims⟩
  | ok _ => exact ⟨hr.withClaims.unloadNamed.result, hr.withClaims.unloadNamed.rack.release⟩

end Outlines

end Rack

/-! ## Requests -/

def LifecycleReply.outline (g : ModuleError → ModuleError) : LifecycleReply → LifecycleReply
  | .failed error => .failed (error.outline g)
  | reply => reply

def Reply.outline (g : ModuleError → ModuleError) : Reply → Reply
  | .called reply => .called (reply.outline g)
  | reply => reply

namespace Rack

theorem Recurs.reply {α : Type} {x x' : Except LifecycleError α × Rack} {f : α → LifecycleReply}
    (h : Recurs g x x') (hf : ∀ a, (f a).outline g = f a) :
    LifecycleReply.ofResult f x'.1 = (LifecycleReply.ofResult f x.1).outline g := by
  rw [h.result]
  cases x.1 with
  | error error => rfl
  | ok a => exact (hf a).symm

namespace Outlines

theorem learn (hr : Outlines g r r') {source : Source} :
    Outlines g (r.learn source) (r'.learn source) := by
  unfold Rack.learn
  split
  · have hread : ∀ path content, (r'.env.depot.withFile path content) =
        (r.env.depot.withFile path content).outline g := fun path content =>
      (congrArg (Depot.withFile · path content) hr.env.depot).trans Depot.withFile_outline
    exact hr.withEnv { hr.env with depot := hread _ _ }
  · exact hr

theorem planSource (hr : Outlines g r r') {source : Source} :
    Recurs g (r.planSource source) (r'.planSource source) := by
  simp only [Rack.planSource]
  cases source.read with
  | error error => exact ⟨rfl, hr⟩
  | ok m =>
      obtain ⟨hresult, hplanned⟩ := hr.plan (m := m)
      simp only [hresult]
      cases (r.plan m).1 with
      | error error => exact ⟨rfl, hplanned⟩
      | ok plan =>
          refine ⟨?_, hplanned⟩
          simp only [Except.map, Except.mapError, List.map_map]
          rfl

theorem info (hr : Outlines g r r') {m : Member} : (m.outline g).info r'.env = m.info r.env := by
  have htickets : r'.env.ticketsOf (m.outline g).actor.member = r.env.ticketsOf m.actor.member :=
    hr.env.ticketsOf
  simp only [Member.info, htickets]
  rfl

theorem infos (hr : Outlines g r r') : r'.infos = r.infos := by
  rw [Rack.infos, Rack.infos, hr.members, List.map_map]
  exact List.map_congr_left fun m _ => hr.info

/-- A request to the lifecycle. -/
theorem answer (hr : Outlines g r r') {request : LifecycleCall} :
    (r'.answer request).1 = (r.answer request).1.outline g ∧
      Outlines g (r.answer request).2 (r'.answer request).2 := by
  cases request with
  | load source => exact ⟨hr.learn.load.reply fun _ => rfl, hr.learn.load.rack⟩
  | add name unit => exact ⟨hr.add.reply fun _ => rfl, hr.add.rack⟩
  | postLoad => exact ⟨hr.postLoad.reply fun _ => rfl, hr.postLoad.rack⟩
  | preUnload => exact ⟨hr.preUnload.reply fun _ => rfl, hr.preUnload.rack⟩
  | unloadAll => exact ⟨hr.unloadAll.reply fun _ => rfl, hr.unloadAll.rack⟩
  | unload name => exact ⟨hr.unload.reply fun _ => rfl, hr.unload.rack⟩
  | modules => exact ⟨congrArg LifecycleReply.infos hr.infos, hr⟩
  | info name =>
      refine ⟨?_, hr⟩
      simp only [Rack.answer, hr.find?, Option.map_map, Function.comp_def, hr.info]
      rfl
  | loaded => exact ⟨congrArg LifecycleReply.names hr.names, hr⟩
  | stage name =>
      refine ⟨?_, hr⟩
      simp only [Rack.answer, hr.find?, Option.map_map]
      rfl
  | plan source => exact ⟨hr.learn.planSource.reply fun _ => rfl, hr.learn.planSource.rack⟩
  | describe => exact ⟨congrArg LifecycleReply.texts hr.env.describe, hr⟩

end Outlines

end Rack

/-! ## Steps -/

theorem Environment.answerInside_outline {e : Environment} {request : LifecycleCall} :
    (e.answerInside request).1.outline g = (e.answerInside request).1 := by
  have hclaim : ∀ (e : Environment) names, (e.tryClaim names).1.outline g = (e.tryClaim names).1 := by
    intro e names
    rw [tryClaim]
    cases (Claim.takeAll names { claims := e.claims }).1 <;> rfl
  cases request with
  | load source =>
      rw [answerInside]
      cases source.read with
      | error error => rfl
      | ok m => exact hclaim _ _
  | add name unit => exact hclaim _ _
  | unload name => exact hclaim _ _
  | _ => rfl

/-- Nobody is told, in reply to an action, what a module has failed with. -/
theorem Environment.perform_outline {e : Environment} {p : Party} {a : Action} :
    (e.perform p a).1.outline g = (e.perform p a).1 := by
  have hview : ∀ h, (e.view h).outline g = e.view h := fun h => by cases h <;> rfl
  cases a
  case call request => exact congrArg Reply.called answerInside_outline
  -- the reply to anything else does not come from the lifecycle
  all_goals
    simp only [perform, publishInterface, publishAdvisor, withdraw, lease, panel, inspect, release, drop,
      award, banner, filter, draw, askDossier, keepDossier]
    repeat' split
  all_goals first | rfl | exact hview _

namespace Session

theorem perform_outlines (hr : r.Outlines g r') {p : Party} {a : Action} :
    (perform r' p a).1 = (perform r p a).1.outline g ∧
      (perform r p a).2.Outlines g (perform r' p a).2 := by
  have hdone : Environment.Repeats g (r.env.perform p a) (r'.env.perform p a) := hr.env.perform
  exact ⟨hdone.reply.trans Environment.perform_outline.symm, hr.withEnv hdone.env⟩

theorem through_outlines (hr : r.Outlines g r') {member : Nat} {s : ScriptStep} :
    (through r' member s).1 = (through r member s).1.outline g ∧
      (through r member s).2.Outlines g (through r' member s).2 := by
  cases s with
  | act a _ => exact perform_outlines hr
  | keep name => exact perform_outlines hr
  | fail error => exact ⟨rfl, hr⟩
  | panic reason => exact ⟨rfl, hr⟩

/-- A step of the host's has the same reply for a rack and for its outline, but for what a module has
failed with, and leaves a rack and its outline. -/
theorem step_outlines (hr : r.Outlines g r') (s : SessionStep) :
    (step r' s).1 = (step r s).1.outline g ∧ (step r s).2.Outlines g (step r' s).2 := by
  cases s with
  | act owner a => exact perform_outlines hr
  | through name s =>
      simp only [step, hr.env.kept]
      cases Keyed.get? r.env.kept name with
      | none => exact ⟨rfl, hr⟩
      | some member => exact through_outlines hr
  | call request => exact ⟨congrArg Reply.called hr.answer.1, hr.answer.2⟩
  | dropInstance ticket => exact ⟨hr.env.dropService.reply, hr.withEnv hr.env.dropService.env⟩
  | forgetDossier name => exact ⟨hr.env.dropDossier.reply, hr.withEnv hr.env.dropDossier.env⟩
  | sameSeats x y =>
      refine ⟨?_, hr⟩
      simp only [step, sameSeats, hr.env.held?]
      rfl
  | describeSlot slot =>
      refine ⟨?_, hr⟩
      simp only [step, hr.env.held?]
      rfl

end Session

end Backplane
