import Backplane.Proofs.Lifecycle.Timeline
import Backplane.Proofs.Session.Reachable
/-!
# `Backplane.Proofs.Session.Moments`: the moments of a step

The moments of a step are all that happens in it, whatever the host does and whatever modules do in
their hooks.  So at every moment of every step of a rack that can be reached, the environment is
sound.

The rack is the `ModuleLoader`, with its `Broker`.
-/
namespace Backplane

variable {r : Rack} {m : Member}

namespace Rack

/-- An operation claims modules, and gives them back when it ends. -/
theorem release_unfolds {claims names : List String} {xs : List Moment} {r' : Rack}
    (hclaim : claimAll r.env.claims names = .ok claims) (h : Unfolds (r.withClaims claims).env xs r'.env) :
    Unfolds r.env xs (r'.release names).env := by
  obtain ⟨heq, -⟩ := claimAll_ok hclaim
  have hsub : r.env.claims ⊆ claims := heq ▸ List.subset_append_left _ _
  have hback : unclaim r'.env.claims names = r.env.claims :=
    (congrArg (unclaim · names) h.claims.2).trans (unclaim_claimAll hclaim)
  have hreleased : (r'.release names).env = { r'.env with claims := r.env.claims } :=
    congrArg (fun claims => { r'.env with claims }) hback
  rw [hreleased]
  exact .claimed hsub h

/-! ## Loading -/

def loadManifestMoments (r : Rack) (m : Manifest) : List Moment :=
  match claimAll r.env.claims (m.modules.map (·.name)) with
  | .error _ => []
  | .ok claims =>
    let planned := (r.withClaims claims).plan m
    match planned.1 with
    | .error _ => []
    | .ok plan => loadAllMoments r.nextBatch plan [] (planned.2.beginBatch plan)

def loadMoments (r : Rack) (source : Source) : List Moment :=
  match source.read with
  | .error _ => []
  | .ok m =>
    (r.mapEnv fun env =>
      env.report .info .loader (Environment.readingText source m)).loadManifestMoments m

theorem loadBatch_unfolds {plan : List PlannedModule} (he : r.env.Stands) :
    Unfolds r.env (loadAllMoments r.nextBatch plan [] (r.beginBatch plan))
      (r.loadBatch plan).2.env := by
  have hbegun : Unfolds r.env [] (r.beginBatch plan) := .report
  have hloaded := hbegun.trans (@loadAll_unfolds _ [] r.nextBatch plan (hbegun.stands he).2)
  rw [loadBatch_eq]
  revert hloaded
  cases loadAll r.nextBatch plan [] (r.beginBatch plan) with
  | mk res after =>
      cases res with
      | error err => exact id
      | ok members => exact fun hloaded => hloaded.andThen .report

/-- While a manifest is loaded its modules are claimed. -/
theorem loadManifest_claimed {m : Manifest} {claims : List String} (he : r.env.Stands)
    (hclaim : claimAll r.env.claims (m.modules.map (·.name)) = .ok claims) :
    Unfolds (r.withClaims claims).env (r.loadManifestMoments m)
      ((r.withClaims claims).loadPlanned m).2.env := by
  let planned := (r.withClaims claims).plan m
  have hplanned : Unfolds (r.withClaims claims).env [] planned.2.env := .same rfl rfl fun _ _ h => h
  simp only [loadManifestMoments, hclaim, loadPlanned]
  cases planned.1 with
  | error err => exact hplanned
  | ok plan => exact hplanned.trans (loadBatch_unfolds (hplanned.stands (he.withClaims claims)).2)

theorem loadManifest_unfolds {m : Manifest} (he : r.env.Stands) :
    Unfolds r.env (r.loadManifestMoments m) (r.loadManifest m).2.env := by
  rw [loadManifest_eq]
  cases hclaim : claimAll r.env.claims (m.modules.map (·.name)) with
  | error name =>
      have hnone : r.loadManifestMoments m = [] := by rw [loadManifestMoments, hclaim]
      rw [hnone]
      exact .refl _
  | ok claims => exact release_unfolds hclaim (loadManifest_claimed he hclaim)

theorem load_unfolds {source : Source} (he : r.env.Stands) :
    Unfolds r.env (r.loadMoments source) (r.load source).2.env := by
  rw [load, loadMoments]
  cases source.read with
  | error err => exact .refl _
  | ok m =>
      let begun := r.mapEnv fun env =>
        env.report .info .loader (Environment.readingText source m)
      have hread : Unfolds r.env [] begun.env := .report
      have hloaded : Unfolds begun.env (begun.loadManifestMoments m) (begun.loadManifest m).2.env :=
        loadManifest_unfolds (hread.stands he).2
      exact hread.trans hloaded

/-! ## Unloading -/

def unloadAllMoments (r : Rack) : List Moment :=
  match r.members.reverse.find? fun m => m.stage = .postLoaded with
  | some _ => []
  | none =>
    retireMoments r.members.reverse r.announced ++
      match (retireMembers [] r.members.reverse r.announced).1 with
      | none =>
        tearDownMoments r.members.reverse (retireMembers [] r.members.reverse r.announced).2
      | some _ => []

def takeOutMoments (r : Rack) (m : Member) : List Moment :=
  let ready := m.makeReady r.env
  (if m.stage = .postLoaded then m.preUnloadMoments r.env else []) ++
    match ready.1 with
    | .error _ => []
    | .ok () => ready.2.1.teardownMoments ready.2.2

def unloadMemberMoments (r : Rack) (m : Member) : List Moment :=
  .retire r.env m.actor :: match (r.env.retireRegistrations m.actor).1 with
    | none => { r with env := (r.env.retireRegistrations m.actor).2 }.takeOutMoments m
    | some _ => []

def unloadNamedMoments (r : Rack) (name : String) : List Moment :=
  match r.find? name with
  | none => []
  | some m =>
    match r.dependentsOf name with
    | [] => r.unloadMemberMoments m
    | _ => []

def unloadMoments (r : Rack) (name : String) : List Moment :=
  match claimAll r.env.claims [name] with
  | .error _ => []
  | .ok claims => (r.withClaims claims).unloadNamedMoments name

theorem Sound.issued (hs : r.Sound) : Issued r.env r.members := fun m hm => (hs.settled m hm).issued

theorem Sound.unloadAll_unfolds (hs : r.Sound) :
    Unfolds r.env r.unloadAllMoments r.unloadAll.2.env := by
  have hbegun : Unfolds r.env [] r.announced := .report
  rw [Rack.unloadAll, unloadAllMoments]
  cases r.members.reverse.find? fun m => m.stage = .postLoaded with
  | some m => exact hbegun
  | none =>
      have hissued : Issued r.announced r.members.reverse :=
        fun m hm => hs.issued m (List.mem_reverse.mp hm)
      show Unfolds _ _ (Rack.retireAndTearDown { r with env := r.announced }).2.env
      simp only [retireAndTearDown]
      cases hret : (retireMembers [] r.members.reverse r.announced).1 with
      | some x =>
          have hannounced : r.announced.Sound [] := hs.env.same rfl
          obtain ⟨more, heq⟩ := retireMembers_some hannounced hannounced (.refl _) hret
          have hback : (retireMembers [] r.members.reverse r.announced).2
              = r.announced.reportAll more := heq
          simp only [hback, List.append_nil]
          exact retireMembers_refused hret hbegun rfl rfl rfl
      | none =>
          have hretired := hbegun.trans (retireMembers_unfolds hret)
          have hstill : Issued (retireMembers [] r.members.reverse r.announced).2
              r.members.reverse :=
            fun m hm => Nat.lt_of_lt_of_le (hissued m hm) hretired.nextMember_le
          have hdown := hretired.trans (tearDownAll_unfolds hstill)
          simp only [tearDown]
          revert hdown
          cases (tearDownAll r.members.reverse
            (retireMembers [] r.members.reverse r.announced).2).1 with
          | ok names => exact fun hdown => hdown.andThen .report
          | error err => exact id

theorem takeOut_unfolds (hm : m.actor.member < r.env.nextMember) :
    Unfolds r.env (r.takeOutMoments m) (r.takeOut m).2.env := by
  have heq : (if m.stage = .postLoaded then m.preUnload r.env else (.ok (), m, r.env)) =
      m.makeReady r.env := rfl
  have hready : Unfolds r.env (if m.stage = .postLoaded then m.preUnloadMoments r.env else [])
      (m.makeReady r.env).2.2 := by
    rw [Member.makeReady]
    split
    · exact Member.preUnload_unfolds hm
    · exact .refl _
  have hactor : (m.makeReady r.env).2.1.actor = m.actor := by
    rw [Member.makeReady]
    split
    · exact Member.preUnload_actor
    · rfl
  simp only [takeOut, takeOutMoments, heq]
  cases (m.makeReady r.env).1 with
  | error err =>
      simp only [List.append_nil]
      exact hready
  | ok _ =>
      have hlt : (m.makeReady r.env).2.1.actor.member < (m.makeReady r.env).2.2.nextMember :=
        Nat.lt_of_lt_of_le (hactor ▸ hm) hready.nextMember_le
      exact hready.trans (Member.teardown_unfolds hlt)

theorem Sound.unloadMember_unfolds (hs : r.Sound) (hm : m ∈ r.members) :
    Unfolds r.env (r.unloadMemberMoments m) (r.unloadMember m).2.env := by
  rw [Rack.unloadMember, unloadMemberMoments]
  cases hr : (r.env.retireRegistrations m.actor).1 with
  | none =>
      have hretired := Unfolds.retire hr
      have hlt := Nat.lt_of_lt_of_le (hs.issued m hm) hretired.nextMember_le
      exact hretired.trans
        (takeOut_unfolds (r := { r with env := (r.env.retireRegistrations m.actor).2 }) hlt)
  | some x =>
      obtain ⟨more, heq⟩ := Environment.retireRegistrations_some hs.env hr
      simp only [heq]
      exact (Unfolds.refl r.env).refuse (by simp [hr]) rfl rfl rfl

theorem Sound.unloadNamed_unfolds (hs : r.Sound) (name : String) :
    Unfolds r.env (r.unloadNamedMoments name) (r.unloadNamed name).2.env := by
  rw [Rack.unloadNamed, unloadNamedMoments]
  cases hfind : r.find? name with
  | none => exact .refl _
  | some m =>
      simp only
      cases r.dependentsOf name with
      | cons d ds => exact .refl _
      | nil => exact hs.unloadMember_unfolds (mem_of_find? hfind).1

/-- While a module is unloaded it is claimed. -/
theorem Sound.unload_claimed {name : String} {claims : List String} (hs : r.Sound)
    (hclaim : claimAll r.env.claims [name] = .ok claims) :
    Unfolds (r.withClaims claims).env (r.unloadMoments name)
      ((r.withClaims claims).unloadNamed name).2.env := by
  rw [unloadMoments, hclaim]
  exact (hs.withClaims claims).unloadNamed_unfolds name

theorem Sound.unload_unfolds (hs : r.Sound) (name : String) :
    Unfolds r.env (r.unloadMoments name) (r.unload name).2.env := by
  rw [unload_eq]
  cases hclaim : claimAll r.env.claims [name] with
  | error other =>
      have hnone : r.unloadMoments name = [] := by rw [unloadMoments, hclaim]
      rw [hnone]
      exact .refl _
  | ok claims => exact release_unfolds hclaim (hs.unload_claimed hclaim)

end Rack

/-! ## Steps -/

namespace Session

def answerMoments (r : Rack) : LifecycleCall → List Moment
  | .load source => (r.learn source).loadMoments source
  | .add name unit => r.loadManifestMoments ⟨[{ name, unit }]⟩
  | .postLoad => attachMoments r.members r.env
  | .preUnload => detachMoments r.members.reverse r.env
  | .unloadAll => r.unloadAllMoments
  | .unload name => r.unloadMoments name
  | _ => []

/-- The moments of a step through a dossier. -/
def throughMoments (r : Rack) (member : Nat) : ScriptStep → List Moment
  | .act a _ => [.act r.env (.delegate member) a]
  | .keep name => [.act r.env (.delegate member) (.keepDossier name)]
  | _ => []

/-- The moments of a step. -/
def moments (r : Rack) : SessionStep → List Moment
  | .act owner a => [.act r.env (.host owner) a]
  | .through name s =>
    match Keyed.get? r.env.kept name with
    | some member => throughMoments r member s
    | none => []
  | .call request => answerMoments r request
  | _ => []

theorem through_unfolds {n : Nat} (s : ScriptStep) :
    Unfolds r.env (throughMoments r n s) (through r n s).2.env := by
  cases s with
  | act a must => exact .act (p := .delegate n) a (by simp [Party.delegate])
  | keep name => exact .act (p := .delegate n) (.keepDossier name) (by simp [Party.delegate])
  | fail e => exact .refl _
  | panic reason => exact .refl _

theorem learn_unfolds {source : Source} : Unfolds r.env [] (r.learn source).env := by
  unfold Rack.learn
  split
  · exact .same rfl rfl fun _ _ h => h
  · exact .refl _

theorem planSource_unfolds {source : Source} : Unfolds r.env [] (r.planSource source).2.env := by
  rw [Rack.planSource]
  cases source.read with
  | error e => exact .refl _
  | ok m =>
      simp only
      cases (r.plan m).1 <;> exact .same rfl rfl fun _ _ h => h

theorem answer_unfolds (hs : r.Sound) (request : LifecycleCall) :
    Unfolds r.env (answerMoments r request) (r.answer request).2.env := by
  have hstands : r.env.Stands := ⟨[], hs.env⟩
  cases request with
  | load source =>
      exact learn_unfolds.trans (Rack.load_unfolds (learn_unfolds.stands hstands).2)
  | add name unit => exact Rack.loadManifest_unfolds hstands
  | postLoad =>
      have hdone := attachAll_unfolds hs.issued
      simp only [Rack.answer, Rack.postLoad]
      cases (attachAll r.members r.env).1 with
      | ok n => exact hdone.andThen .report
      | error err => exact hdone
  | preUnload =>
      have hissued : Issued r.env r.members.reverse :=
        fun m hm => hs.issued m (List.mem_reverse.mp hm)
      have hdone := detachAll_unfolds hissued
      simp only [Rack.answer, Rack.preUnload]
      cases (detachAll r.members.reverse r.env).1 with
      | ok n => exact hdone.andThen .report
      | error err => exact hdone
  | unloadAll => exact hs.unloadAll_unfolds
  | unload name => exact hs.unload_unfolds name
  | plan source => exact learn_unfolds.trans planSource_unfolds
  | _ => exact .refl _

/-- The moments of a step are all that happens in it. -/
theorem step_unfolds (hs : r.Sound) (s : SessionStep) :
    Unfolds r.env (moments r s) (step r s).2.env := by
  cases s with
  | act owner a => exact .act (p := .host owner) a (by simp [Party.host])
  | through name s =>
      rw [step, moments]
      cases Keyed.get? r.env.kept name with
      | none => exact .refl _
      | some n => exact through_unfolds s
  | call request => exact answer_unfolds hs request
  | dropInstance ticket => exact .same rfl rfl fun _ _ h => h
  | forgetDossier name => exact .same rfl rfl fun _ _ h => h
  | sameSeats x y => exact .refl _
  | describeSlot slot => exact .refl _

end Session

theorem Reachable.stands (hr : Reachable r) : r.env.Stands := ⟨[], hr.sound.1.env⟩

/-- At every moment of every step the environment is sound. -/
theorem Reachable.moments_stand (hr : Reachable r) (s : SessionStep) :
    ∀ x ∈ Session.moments r s, x.env.Stands :=
  ((Session.step_unfolds hr.sound.1 s).stands hr.stands).1

/-- Whether somebody who acts on a rack can find the environment like this: between two steps, or at
a moment of one. -/
def Rack.Visits (r : Rack) (e : Environment) : Prop :=
  e = r.env ∨ ∃ s, ∃ x ∈ Session.moments r s, x.env = e

theorem Reachable.visits_stand {e : Environment} (hr : Reachable r) (he : r.Visits e) : e.Stands := by
  rcases he with rfl | ⟨s, x, hx, rfl⟩
  · exact hr.stands
  · exact hr.moments_stand s x hx

end Backplane
