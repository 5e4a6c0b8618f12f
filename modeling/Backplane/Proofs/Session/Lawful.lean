import Backplane.Proofs.Lifecycle.Entries
import Backplane.Proofs.Lifecycle.Passages
import Backplane.Proofs.Session.Reachable
/-!
# `Backplane.Proofs.Session.Lawful`: what befalls instances, whatever a host does

What the host does on the registries or through dossiers leaves the roll as it is, and each of its
requests to the lifecycle is a sequence of passages.  So the roll of every rack that can be reached
is lawful: nobody is loaded before those it needs, or taken down after them, and the hooks of each
instance come in the order of the stages.

The lifecycle is the `ModuleLoader`.
-/
namespace Backplane

variable {r r' : Rack}

namespace Session

theorem through_roll {n : Nat} (s : ScriptStep) : (through r n s).2.roll = r.roll := by
  cases s with
  | act a must => exact rollOf_congr (Environment.perform_annals a)
  | keep name => exact rollOf_congr (Environment.perform_annals (.keepDossier name))
  | fail e => rfl
  | panic reason => rfl

theorem learn_roll {source : Source} : (r.learn source).roll = r.roll := by
  unfold Rack.learn
  split <;> rfl

theorem planSource_roll {source : Source} : (r.planSource source).2.roll = r.roll := by
  rw [Rack.planSource]
  cases source.read with
  | error e => rfl
  | ok m =>
      simp only
      cases (r.plan m).1 <;> rfl

theorem answer_passages (hs : r.Sound) (request : LifecycleCall) :
    r.roll.Passages (r.answer request).2.roll := by
  cases request with
  | load source =>
      rw [← @learn_roll r source]
      exact Rack.load_passages source
  | add name unit => exact (Rack.loadManifest_entries ⟨[{ name, unit }]⟩).passages
  | postLoad => exact Rack.postLoad_passages
  | preUnload => exact Rack.preUnload_passages
  | unloadAll => exact hs.unloadAll_passages
  | unload name => exact hs.unload_passages name
  | plan source =>
      rw [← @learn_roll r source, ← @planSource_roll (r.learn source) source]
      exact .refl
  | _ => exact .refl

/-- Every step is a sequence of passages. -/
theorem step_passages (hs : r.Sound) (s : SessionStep) : r.roll.Passages (step r s).2.roll := by
  cases s with
  | act owner a =>
      have hsame : (perform r (.host owner) a).2.roll = r.roll :=
        rollOf_congr (Environment.perform_annals a)
      rw [step, hsame]
  | through name s =>
      rw [step]
      cases Keyed.get? r.env.kept name with
      | none => exact .refl
      | some n =>
          simp only
          rw [through_roll]
  | call request => exact answer_passages hs request
  | _ => exact .refl

end Session

/-- The roll of every rack that can be reached is lawful. -/
theorem Reachable.lawful (hr : Reachable r) : r.roll.Lawful := by
  induction hr with
  | start depot => exact .empty
  | step hr s ih => exact ih.passages (Session.step_passages hr.sound.1 s)
  | clear hr ih => exact ih
  | restock hr depot ih => exact ih

end Backplane
