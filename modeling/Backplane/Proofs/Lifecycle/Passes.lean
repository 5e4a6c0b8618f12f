import Backplane.Proofs.Lifecycle.Passages
/-!
# `Backplane.Proofs.Lifecycle.Passes`: a pass goes all the way

The hook after loading, and that before unloading, is run in one pass over the members, and a hook
that fails does not end the pass.

| pass | who is due | who moves on |
| :-- | :-- | :-- |
| attaching | whoever is loaded, in load order | to the stage after loading |
| detaching | whoever is attached, the last one first | to the stage before unloading |

The passes are `do_post_load_stage` and `do_pre_unload_stage`.
-/
namespace Backplane

variable {m : Member} {ms : List Member} {env env' : Environment} {hook : Hook} {s s' : Stage}

/-- What a pass over members comes to: each of those that are due has its hook once, in order and
whatever it ends with, and moves on; the others are what they were. -/
structure GoesThrough (hook : Hook) (s s' : Stage) (ms : List Member) (env : Environment)
    (done : Except LifecycleError Nat × List Member × Environment) : Prop where
  count : done.1 = .ok (ms.countP (·.stage = s))
  members : done.2.1 = ms.map fun m => if m.stage = s then { m with stage := s' } else m
  turns : ∃ ends : List (Member × Option ModuleError),
    ends.map Prod.fst = ms.filter (·.stage = s) ∧
      done.2.2.turns = env.turns ++ ends.flatMap fun x => hookTurns x.1.actor hook x.2

namespace GoesThrough

theorem nil : GoesThrough hook s s' [] env (.ok 0, [], env) :=
  ⟨rfl, rfl, [], rfl, by simp⟩

/-- One that is not due is passed over. -/
theorem skip {done : Except LifecycleError Nat × List Member × Environment}
    (h : GoesThrough hook s s' ms env done) (hm : m.stage ≠ s) :
    GoesThrough hook s s' (m :: ms) env (done.1, m :: done.2.1, done.2.2) := by
  obtain ⟨hcount, hmembers, ends, hends, hturns⟩ := h
  refine ⟨?_, ?_, ends, ?_, hturns⟩
  · rw [hcount, List.countP_cons_of_neg (by simpa using hm)]
  · rw [hmembers, List.map_cons, if_neg hm]
  · rw [hends, List.filter_cons_of_neg (by simpa using hm)]

/-- One that is due has its hook and moves on, and then it is the turn of the next. -/
theorem next {done : Except LifecycleError Nat × List Member × Environment} {f : Option ModuleError}
    (h : GoesThrough hook s s' ms env' done) (hm : m.stage = s)
    (hturns : env'.turns = env.turns ++ hookTurns m.actor hook f) :
    GoesThrough hook s s' (m :: ms) env
      (done.1.map (· + 1), { m with stage := s' } :: done.2.1, done.2.2) := by
  obtain ⟨hcount, hmembers, ends, hends, hrest⟩ := h
  refine ⟨?_, ?_, (m, f) :: ends, ?_, ?_⟩
  · rw [hcount, List.countP_cons_of_pos (by simpa using hm)]
    rfl
  · rw [hmembers, List.map_cons, if_pos hm]
  · rw [List.map_cons, hends, List.filter_cons_of_pos (by simpa using hm)]
  · rw [hrest, hturns, List.flatMap_cons, List.append_assoc]

end GoesThrough

theorem attachAll_goesThrough :
    GoesThrough .postLoad .loaded .postLoaded ms env (attachAll ms env) := by
  induction ms generalizing env with
  | nil => exact .nil
  | cons m ms ih =>
      rw [attachAll]
      by_cases hm : m.stage = .loaded
      · have hnext : m.stage.mayBecome .postLoaded = true := by
          rw [hm]
          rfl
        obtain ⟨e₁, hadvance, ha⟩ := Member.advance_annals (m.runReported .postLoad env) hnext
        obtain ⟨f, hrun⟩ := @Member.runReported_annals env m .postLoad
        have hturns : e₁.turns = env.turns ++ hookTurns m.actor .postLoad f :=
          congrArg Prod.fst (ha.trans hrun)
        simp only [if_pos hm, hadvance]
        exact (@ih e₁).next hm hturns
      · simp only [if_neg hm]
        exact ih.skip hm

theorem detachAll_goesThrough :
    GoesThrough .preUnload .postLoaded .preUnloaded ms env (detachAll ms env) := by
  induction ms generalizing env with
  | nil => exact .nil
  | cons m ms ih =>
      rw [detachAll]
      by_cases hm : m.stage = .postLoaded
      · obtain ⟨e₁, f, hpre, ha⟩ := @Member.preUnload_annals env m hm
        simp only [if_pos hm, hpre]
        exact (@ih e₁).next hm (congrArg Prod.fst ha)
      · simp only [if_neg hm]
        exact ih.skip hm

end Backplane
