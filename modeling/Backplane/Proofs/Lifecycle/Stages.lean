import Backplane.Lifecycle.Stages
import Backplane.Proofs.Lifecycle.Member
/-!
# `Backplane.Proofs.Lifecycle.Stages`: the passes over the members

Both passes reach their end, whatever the hooks do.  They change the stages of members and nothing
else about them, and what the hooks do is calm.

These are `do_post_load_stage` and `do_pre_unload_stage`.
-/
namespace Backplane

variable {e : Environment} {gone : List Ticket} {m : Member} {ms : List Member} {next : Nat}

/-- A member between two operations. -/
structure Member.Settled (next : Nat) (m : Member) : Prop where
  stage : m.stage = .loaded ∨ m.stage = .postLoaded ∨ m.stage = .preUnloaded
  issued : m.actor.member < next

namespace Member

theorem Settled.mono {next' : Nat} (hm : m.Settled next) (h : next ≤ next') : m.Settled next' :=
  ⟨hm.stage, Nat.lt_of_lt_of_le hm.issued h⟩

theorem Settled.mayBecome_unloaded (hm : m.Settled next) (h : m.stage ≠ .postLoaded) :
    m.stage.mayBecome .unloaded = true := by
  rcases hm.stage with hl | hl | hl
  · rw [hl]
    rfl
  · exact absurd hl h
  · rw [hl]
    rfl

/-- What a hook of a member does is calm. -/
theorem calm_of_moves {e' : Environment} (hs : e.Sound gone) (hm : m.actor.member < e.nextMember)
    (h : Moves (.member m.actor.member) (e.scene []) (e'.scene [])) : Calm gone e e' :=
  .moves hs h (Scene.bounded_home hm)

theorem preUnload_calm (hs : e.Sound gone) (hm : m.Settled e.nextMember)
    (hstage : m.stage = .postLoaded) :
    ∃ e', m.preUnload e = (.ok (), { m with stage := .preUnloaded }, e') ∧ Calm gone e e' := by
  obtain ⟨hok, hnext, hmoves⟩ := @preUnload_of_postLoaded m e hstage
  exact ⟨_, Prod.ext hok (Prod.ext hnext rfl), calm_of_moves hs hm.issued hmoves⟩

end Member

/-- Members that have gone through a pass. -/
structure Passed (next : Nat) (ms ms' : List Member) : Prop where
  settled : ∀ m ∈ ms', m.Settled next
  actors : ms'.map (·.actor) = ms.map (·.actor)

theorem Passed.cons {m' : Member} {ms' : List Member} (h : Passed next ms ms')
    (hm : m'.Settled next) (ha : m'.actor = m.actor) : Passed next (m :: ms) (m' :: ms') where
  settled := fun x hx => by
    rcases List.mem_cons.mp hx with rfl | hx
    · exact hm
    · exact h.settled x hx
  actors := by rw [List.map_cons, List.map_cons, ha, h.actors]

theorem attachAll_calm (hs : e.Sound gone) (hms : ∀ m ∈ ms, m.Settled e.nextMember) :
    ∃ n ms' e', attachAll ms e = (.ok n, ms', e') ∧ Calm gone e e' ∧
    Passed e'.nextMember ms ms' := by
  induction ms generalizing e with
  | nil => exact ⟨0, [], e, rfl, .refl hs, by simp, rfl⟩
  | cons m ms ih =>
      have hm := hms m List.mem_cons_self
      have hrest : ∀ x ∈ ms, x.Settled e.nextMember := fun x hx => hms x (List.mem_cons_of_mem _ hx)
      rw [attachAll]
      by_cases hstage : m.stage = .loaded
      · have hnext : m.stage.mayBecome .postLoaded = true := by rw [hstage]; rfl
        obtain ⟨e₁, hadv, hsame⟩ := Member.advance_ok (m.runReported .postLoad e) hnext
        have hfirst : Calm gone e e₁ :=
          (Member.calm_of_moves hs hm.issued Member.runReported_moves).same (hsame [])
        obtain ⟨n, ms', e', heq, hc, hp⟩ :=
          ih hfirst.course.sound fun x hx => (hrest x hx).mono hfirst.course.later
        refine ⟨n + 1, { m with stage := .postLoaded } :: ms', e', ?_, hfirst.trans hc,
          hp.cons ⟨by simp, ?_⟩ rfl⟩
        · simp only [hstage, if_true, hadv, heq, Except.map]
        · exact (hm.mono (hfirst.trans hc).course.later).issued
      · obtain ⟨n, ms', e', heq, hc, hp⟩ := ih hs hrest
        refine ⟨n, m :: ms', e', ?_, hc, hp.cons (hm.mono hc.course.later) rfl⟩
        simp only [hstage, if_false, heq]

theorem detachAll_calm (hs : e.Sound gone) (hms : ∀ m ∈ ms, m.Settled e.nextMember) :
    ∃ n ms' e', detachAll ms e = (.ok n, ms', e') ∧ Calm gone e e' ∧
    Passed e'.nextMember ms ms' := by
  induction ms generalizing e with
  | nil => exact ⟨0, [], e, rfl, .refl hs, by simp, rfl⟩
  | cons m ms ih =>
      have hm := hms m List.mem_cons_self
      have hrest : ∀ x ∈ ms, x.Settled e.nextMember := fun x hx => hms x (List.mem_cons_of_mem _ hx)
      rw [detachAll]
      by_cases hstage : m.stage = .postLoaded
      · obtain ⟨e₁, hpre, hfirst⟩ := Member.preUnload_calm hs hm hstage
        obtain ⟨n, ms', e', heq, hc, hp⟩ :=
          ih hfirst.course.sound fun x hx => (hrest x hx).mono hfirst.course.later
        refine ⟨n + 1, { m with stage := .preUnloaded } :: ms', e', ?_, hfirst.trans hc,
          hp.cons ⟨by simp, ?_⟩ rfl⟩
        · simp only [hstage, if_true, hpre, heq, Except.map]
        · exact (hm.mono (hfirst.trans hc).course.later).issued
      · obtain ⟨n, ms', e', heq, hc, hp⟩ := ih hs hrest
        refine ⟨n, m :: ms', e', ?_, hc, hp.cons (hm.mono hc.course.later) rfl⟩
        simp only [hstage, if_false, heq]

end Backplane
