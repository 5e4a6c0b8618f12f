import Backplane.Proofs.Lifecycle.Unloading
import Backplane.Session.Basic
/-!
# `Backplane.Proofs.Session.Reachable`: what a host can come to

Whatever the host does, through the registries, through dossiers that were kept, or by asking the
lifecycle, a sound rack stays sound and no claim is left behind.  So every rack that can be reached
is sound.

A rack is the `ModuleLoader`, with its `Broker`.
-/
namespace Backplane

/-- A rack that a host can come to have, whatever there is to load and whatever anybody does. -/
inductive Reachable : Rack → Prop
  | start (depot : Depot) : Reachable { env := { depot } }
  | step {r : Rack} (hr : Reachable r) (s : SessionStep) : Reachable (Session.step r s).2
  | clear {r : Rack} (hr : Reachable r) : Reachable (Session.clear r)
  /-- Other units come to lie about. -/
  | restock {r : Rack} (hr : Reachable r) (depot : Depot) :
      Reachable (r.mapEnv fun env => { env with depot })

/-- The rack after steps in order. -/
def Session.after (r : Rack) (steps : List SessionStep) : Rack :=
  steps.foldl (fun r s => (step r s).2) r

theorem Reachable.after {r : Rack} (hr : Reachable r) (steps : List SessionStep) :
    Reachable (Session.after r steps) := by
  induction steps generalizing r with
  | nil => exact hr
  | cons s steps ih => exact ih (hr.step s)

/-- A module that can be built, for examples. -/
def plain (name : String) (hooks : Hooks := {}) (dependencies : List String := []) : Blueprint where
  name
  dependencies
  construction := .built { selfName := name, version := "1.0.0", hooks }

/-- A host's rack before anything has been done, with modules there to be loaded. -/
def Rack.offering (modules : List Blueprint) : Rack :=
  { env := { depot := { builtin := .ofList "core" modules } } }

theorem Reachable.offering (modules : List Blueprint) : Reachable (Rack.offering modules) :=
  .start _

variable {r r' : Rack}

/-- A step after which the rack is sound again and the claims are what they were. -/
structure Rack.Leaves (r r' : Rack) : Prop where
  sound : r'.Sound
  claims : r'.env.claims = r.env.claims

/-- A step that takes nothing away from users besides. -/
structure Rack.Spares (r r' : Rack) : Prop extends Rack.Leaves r r' where
  departures : ∀ t, t ∈ r'.env.broker.departures ↔ t ∈ r.env.broker.departures

namespace Rack

theorem Spares.of_calm (hs : r.Sound) (hc : Calm [] r.env r'.env) (hm : r'.members = r.members) :
    r.Spares r' where
  sound := hs.withEnv hc.course.sound hm hc.course.later
  claims := hc.course.claims
  departures := hc.departures

theorem Spares.of_same (hs : r.Sound) (he : r'.env.scene [] = r.env.scene [])
    (hm : r'.members = r.members) :
    r.Spares r' :=
  .of_calm hs ((Calm.refl hs.env).same he) hm

variable {planned : Except PlanError (List PlannedModule)}
  {res : Except LifecycleError (List String)}

theorem Outcome.leaves (hs : r.Sound) (ho : Outcome r planned res r') : r.Leaves r' := by
  refine ⟨ho.sound hs, ?_⟩
  cases ho with
  | loaded hplan hadds => exact hadds.batch.course.claims
  | unwound hu hm => exact hu.course.claims
  | refused he => rfl

/-- Only a batch that is unwound can take anything away from users. -/
theorem Outcome.spares (hs : r.Sound) (ho : Outcome r planned res r')
    (hres : ∀ name x, res ≠ .error (.load name x)) : r.Spares r' := by
  refine ⟨ho.leaves hs, ?_⟩
  cases ho with
  | loaded hplan hadds => exact hadds.batch.departures
  | unwound hu hm => exact absurd rfl (hres _ _)
  | refused he => exact fun _ => .rfl

theorem Reported.spares (hs : r.Sound) (h : r.Reported r') : r.Spares r' := by
  obtain ⟨more, rfl⟩ := h
  exact .of_same hs rfl rfl

theorem Shrinks.leaves {xs : List (Member × Environment)} (hs : r.Sound) (h : r.Shrinks xs r') :
    r.Leaves r' :=
  ⟨h.sound hs, h.course.claims⟩

end Rack

namespace Session

/-! ## What the host does on the registries -/

theorem perform_spares {p : Party} (hs : r.Sound) (hp : p.home = .host) (a : Action) :
    r.Spares (perform r p a).2 := by
  have hmoves : Moves p.home (r.env.scene []) ((perform r p a).2.env.scene []) :=
    Environment.perform_moves a
  exact .of_calm hs (.moves hs.env hmoves fun n hn => by simp [hp] at hn) rfl

theorem through_spares (hs : r.Sound) (n : Nat) (s : ScriptStep) : r.Spares (through r n s).2 := by
  cases s with
  | act a must => exact perform_spares hs rfl a
  | keep name => exact perform_spares hs rfl (.keepDossier name)
  | fail e => exact .of_same hs rfl rfl
  | panic reason => exact .of_same hs rfl rfl

/-! ## What the host asks of the lifecycle -/

theorem learn_spares (hs : r.Sound) (source : Source) : r.Spares (r.learn source) := by
  unfold Rack.learn
  split
  · exact .of_same hs rfl rfl
  · exact .of_same hs rfl rfl

/-- Whether a request may end in the removal of registrations, whoever refers to them. -/
def mayPull : LifecycleCall → Bool
  | .load _ => true
  | .add _ _ => true
  | .unloadAll => true
  | .unload _ => true
  | _ => false

theorem planSource_spares (hs : r.Sound) (source : Source) : r.Spares (r.planSource source).2 := by
  rw [Rack.planSource]
  cases source.read with
  | error e => exact .of_same hs rfl rfl
  | ok m =>
      simp only
      cases (r.plan m).1 <;> exact .of_same hs rfl rfl

theorem answer_spares (hs : r.Sound) {request : LifecycleCall} (h : mayPull request = false) :
    r.Spares (r.answer request).2 := by
  cases request with
  | postLoad =>
      obtain ⟨-, -, hsound, hc⟩ := hs.postLoad
      exact ⟨⟨hsound, hc.course.claims⟩, hc.departures⟩
  | preUnload =>
      obtain ⟨-, -, hsound, hc⟩ := hs.preUnload
      exact ⟨⟨hsound, hc.course.claims⟩, hc.departures⟩
  | plan source =>
      have hlearn := learn_spares hs source
      have hplan := planSource_spares hlearn.sound source
      exact ⟨⟨hplan.sound, hplan.claims.trans hlearn.claims⟩,
        fun t => (hplan.departures t).trans (hlearn.departures t)⟩
  | load source => simp [mayPull] at h
  | add name unit => simp [mayPull] at h
  | unloadAll => simp [mayPull] at h
  | unload name => simp [mayPull] at h
  | _ => exact .of_same hs rfl rfl

theorem answer_leaves (hs : r.Sound) (request : LifecycleCall) : r.Leaves (r.answer request).2 := by
  cases request with
  | load source =>
      have hlearn := learn_spares hs source
      have hload := (hlearn.sound.load source).leaves hlearn.sound
      exact ⟨hload.sound, hload.claims.trans hlearn.claims⟩
  | add name unit => exact (hs.loadManifest ⟨[{ name, unit }]⟩).leaves hs
  | unloadAll =>
      rcases hs.unloadAll with ⟨-, hrep⟩ | ⟨-, -, hshrinks⟩
      · exact (hrep.spares hs).toLeaves
      · exact hshrinks.leaves hs
  | unload name =>
      rcases hs.unload name with ⟨-, hrep⟩ | ⟨m, -, -, -, hshrinks⟩
      · exact (hrep.spares hs).toLeaves
      · exact hshrinks.leaves hs
  | _ => exact (answer_spares hs rfl).toLeaves

/-- Loading takes nothing away from users, unless a batch is unwound. -/
theorem load_spares (hs : r.Sound) {source : Source}
    (h : ∀ name x, (r.answer (.load source)).1 ≠ .failed (.load name x)) :
    r.Spares (r.answer (.load source)).2 := by
  have hlearn := learn_spares hs source
  have hload := (hlearn.sound.load source).spares hlearn.sound fun name x heq => h name x (by
    rw [Rack.answer, heq]
    rfl)
  exact ⟨⟨hload.sound, hload.claims.trans hlearn.claims⟩,
    fun t => (hload.departures t).trans (hlearn.departures t)⟩

theorem add_spares (hs : r.Sound) {name : String} {unit : Option String}
    (h : ∀ n x, (r.answer (.add name unit)).1 ≠ .failed (.load n x)) :
    r.Spares (r.answer (.add name unit)).2 :=
  (hs.loadManifest ⟨[{ name, unit }]⟩).spares hs fun n x heq => h n x (by
    rw [Rack.answer, Rack.add, heq]
    rfl)

/-- Every step leaves a sound rack sound, and the claims as they were. -/
theorem step_leaves (hs : r.Sound) (s : SessionStep) : r.Leaves (step r s).2 := by
  cases s with
  | act owner a => exact (perform_spares hs rfl a).toLeaves
  | through name s =>
      rw [step]
      cases Keyed.get? r.env.kept name with
      | none => exact Rack.Spares.toLeaves (.of_same hs rfl rfl)
      | some n => exact (through_spares hs n s).toLeaves
  | call request => exact answer_leaves hs request
  | _ => exact Rack.Spares.toLeaves (.of_same hs rfl rfl)

end Session

/-- Every rack that can be reached is sound, and nothing is claimed on it. -/
theorem Reachable.sound (hr : Reachable r) : r.Sound ∧ r.env.claims = [] := by
  induction hr with
  | start depot => exact ⟨Rack.sound_start depot, rfl⟩
  | step hr s ih =>
      obtain ⟨hs, hclaims⟩ := ih
      have hleaves := Session.step_leaves hs s
      exact ⟨hleaves.sound, hleaves.claims.trans hclaims⟩
  | clear hr ih => exact ⟨ih.1.same rfl rfl, ih.2⟩
  | restock hr depot ih => exact ⟨ih.1.same rfl rfl, ih.2⟩

end Backplane
