import Backplane.Lifecycle.Unload
import Backplane.Proofs.Lifecycle.Course
/-!
# `Backplane.Proofs.Lifecycle.Member`: what becomes of a member

A hook is a sequence of moves of the member's own.  A member that is discarded, or taken down,
leaves nothing in the registries that its dossier had a record of, and nothing in its slots.

A member is a `ModuleRecord`, its dossier a `ModuleContext`.
-/
namespace Backplane

namespace Environment

variable {env : Environment} {hand : List Hold} {n : Nat} {h : Hold}

theorem giveUp_scene :
    (env.giveUp h).scene hand = { env.scene hand with broker := (env.broker.giveBack h).2 } := by
  rw [giveUp]
  cases (env.broker.giveBack h).1 <;> rfl

theorem giveUpAll_scene {hs : List Hold} :
    ∃ b, (env.giveUpAll hs).scene hand = { env.scene hand with broker := b } := by
  induction hs generalizing env with
  | nil => exact ⟨env.broker, rfl⟩
  | cons h hs ih =>
      obtain ⟨b, hb⟩ := @ih (env.giveUp h)
      exact ⟨b, by rw [giveUpAll, List.foldl_cons, ← giveUpAll, hb, giveUp_scene]⟩

/-- Emptying the slots of an instance changes the other slots, and the dossiers, in nothing. -/
theorem emptySlots_scene : ∃ b, (env.emptySlots n).scene hand
    = { env.scene hand with
        broker := b, slots := env.slots.filter fun x => !decide (x.1.home = .member n) } :=
  @giveUpAll_scene { env with slots := env.slots.filter fun x => !decide (x.1.home = .member n) }
    hand _

end Environment

/-- The dossiers after an instance has left. -/
def detachIn (ds : List Dossier) (n : Nat) : List Dossier :=
  changeIn ds n fun d => { d with attached := false }

theorem filedIn_detachIn {ds : List Dossier} {n m : Nat} {t : Ticket} :
    FiledIn (detachIn ds m) n t ↔ FiledIn ds n t := by
  rw [detachIn, filedIn_changeIn (f := fun d => { d with attached := false }) fun _ => rfl]
  refine exists_congr fun d => ?_
  split <;> rfl

theorem map_member_detachIn {ds : List Dossier} {n : Nat} :
    (detachIn ds n).map (·.member) = ds.map (·.member) :=
  map_member_changeIn fun _ => rfl

namespace Member

variable {m : Member} {env e₀ e : Environment} {hook : Hook} {p : Nat → Prop} {gone : List Ticket}

/-! ## Hooks -/

theorem runReported_moves {hand : List Hold} :
    Moves (.member m.actor.member) (env.scene hand) ((m.runReported hook env).scene hand) := by
  have hmoves : Moves (.member m.actor.member) (env.scene hand)
      ((env.runHook m.actor m.body.hooks hook).2.scene hand) := Environment.runHook_moves
  rw [runReported]
  cases (env.runHook m.actor m.body.hooks hook).1 with
  | none => exact hmoves
  | some e => exact hmoves

theorem advance_ok {next : Stage} (env : Environment) (h : m.stage.mayBecome next = true) :
    ∃ env', m.advance next env = .ok ({ m with stage := next }, env') ∧
      ∀ hand, env'.scene hand = env.scene hand :=
  ⟨_, if_pos h, fun _ => rfl⟩

/-- The hook before unloading runs on a member that has been attached, and does not fail it. -/
theorem preUnload_of_postLoaded (hm : m.stage = .postLoaded) :
    (m.preUnload env).1 = .ok () ∧ (m.preUnload env).2.1 = { m with stage := .preUnloaded } ∧
      Moves (.member m.actor.member) (env.scene []) ((m.preUnload env).2.2.scene []) := by
  have hfirst : m.stage.mayBecome .preUnloading = true := by rw [hm]; rfl
  obtain ⟨e₁, h₁, hs₁⟩ := advance_ok env hfirst
  let m₁ : Member := { m with stage := .preUnloading }
  have hnext : m₁.stage.mayBecome .preUnloaded = true := rfl
  obtain ⟨e₂, h₂, hs₂⟩ := advance_ok (m₁.runReported .preUnload e₁) hnext
  have hrun : Moves (.member m.actor.member) (e₁.scene [])
      ((m₁.runReported .preUnload e₁).scene []) :=
    runReported_moves
  simp only [preUnload, h₁]
  rw [h₂]
  refine ⟨rfl, rfl, ?_⟩
  show Moves _ _ (e₂.scene [])
  rw [hs₂, ← hs₁]
  exact hrun

/-! ## Leaving -/

theorem dropInstance_moves {home : SlotHome} {hand : List Hold} :
    Moves home (env.scene hand) ((m.dropInstance env).scene hand) :=
  @Environment.emptySlots_moves ((env.note (.dropped m.actor)).mark (.dropped m.actor)) hand home
    m.actor.member

theorem dropInstance_scene {hand : List Hold} : ∃ b, (m.dropInstance env).scene hand
    = { env.scene hand with
        broker := b
        slots := env.slots.filter fun x => !decide (x.1.home = .member m.actor.member) } :=
  @Environment.emptySlots_scene ((env.note (.dropped m.actor)).mark (.dropped m.actor)) hand
    m.actor.member

/-- Discarding a member is dropping the instance, removing its registrations and letting go of its
dossier, whether it may be unloaded or not; the rest is reported. -/
theorem discardReported_eq : ∃ log log', m.discardReported env =
    { m.detach ((m.dropInstance { env with log }).forceRemoveRegistrations m.actor) with
      log := log' } := by
  unfold discardReported discard advance
  split
  · exact ⟨_, _, rfl⟩
  · exact ⟨env.log, _, rfl⟩

theorem discardReported_scene : ∃ start : Environment, start.scene [] = env.scene [] ∧
    (m.discardReported env).scene []
      = (m.detach ((m.dropInstance start).forceRemoveRegistrations m.actor)).scene [] := by
  obtain ⟨log, log', heq⟩ := @discardReported_eq m env
  exact ⟨{ env with log }, rfl, congrArg (·.scene []) heq⟩

/-- Taking a member down is removing its registrations, running its last hook and letting it go. -/
theorem teardown_ok (hm : m.stage.mayBecome .unloaded = true) : (m.teardown env).1 = .ok () ∧
    ∃ start : Environment,
      start.scene [] = (m.runReported .unload (env.removeRegistrations m.actor)).scene [] ∧
      (m.teardown env).2 = m.detach (m.dropInstance start) := by
  obtain ⟨e₁, h₁, hs₁⟩ := advance_ok (m.runReported .unload (env.removeRegistrations m.actor)) hm
  simp only [teardown, h₁]
  exact ⟨trivial, e₁.report .info .loader ("🔌 Module " ++ m.name ++ " unloaded"), hs₁ [], rfl⟩

/-- After its registrations have been removed, a member that is taken down makes moves of its own
and lets go of its dossier. -/
theorem teardown_moves (hm : m.stage.mayBecome .unloaded = true) :
    ∃ last : Environment,
      Moves (.member m.actor.member) ((env.removeRegistrations m.actor).scene []) (last.scene []) ∧
      (m.teardown env).2 = m.detach last := by
  obtain ⟨-, start, hstart, heq⟩ := @teardown_ok m env hm
  refine ⟨m.dropInstance start, ?_, heq⟩
  have hhook : Moves (.member m.actor.member) ((env.removeRegistrations m.actor).scene [])
      (start.scene []) :=
    hstart ▸ runReported_moves
  exact hhook.trans dropInstance_moves

end Member

/-! ## Courses of operations -/

namespace Course

variable {m : Member} {e₀ e e' : Environment} {p : Nat → Prop} {gone : List Ticket}

theorem detach (hc : Course p gone e₀ e) : Course p gone e₀ (m.detach e) := by
  have hs : (m.detach e).Sound gone :=
    Scene.Sound.refile hc.sound map_member_detachIn (fun _ _ => filedIn_detachIn)
      (Dossier.Trims.changeIn fun _ => .detach)
  exact hc.extend hs rfl (Nat.le_refl _) (List.append_nil _).symm (by simp)

theorem dropInstance (hc : Course p gone e₀ e) : Course p gone e₀ (m.dropInstance e) := by
  have hm : Moves .shared (e.scene []) ((m.dropInstance e).scene []) := Member.dropInstance_moves
  exact hc.moves hm (by simp)

/-- A member that is discarded leaves nothing behind, and what others have is left alone. -/
theorem discard (hc : Course p gone e₀ e) (hp : p m.actor.member) (he' : m.discardReported e = e') :
    Course p gone e₀ e' ∧ e'.nextMember = e.nextMember ∧
      (∀ n t, FiledIn e'.dossiers n t → FiledIn e.dossiers n t ∧ n ≠ m.actor.member) ∧
      (∀ x ∈ e'.slots, x ∈ e.slots ∧ x.1.home ≠ .member m.actor.member) := by
  obtain ⟨start, hstart, heq⟩ := @Member.discardReported_scene m e
  rw [he'] at heq
  obtain ⟨b, hdrop⟩ := @Member.dropInstance_scene m start []
  let removed := (m.dropInstance start).forceRemoveRegistrations m.actor
  have hclear : removed.scene [] = _ := Environment.forceRemoveRegistrations_scene
  have hcourse : Course p gone e₀ removed := (hc.same hstart).dropInstance.clear hp hclear
  refine ⟨hcourse.detach.same heq, ?_, fun n t hf => ?_, fun x hx => ?_⟩
  · calc e'.nextMember = removed.nextMember := congrArg Scene.nextMember heq
      _ = (m.dropInstance start).nextMember := congrArg Scene.nextMember hclear
      _ = start.nextMember := congrArg Scene.nextMember hdrop
      _ = e.nextMember := congrArg Scene.nextMember hstart
  · have hleft : e'.dossiers = detachIn removed.dossiers m.actor.member :=
      congrArg Scene.dossiers heq
    have hcleared : removed.dossiers
          = changeIn (m.dropInstance start).dossiers m.actor.member fun d =>
              { d with records := [] } :=
      congrArg Scene.dossiers hclear
    have hold : (m.dropInstance start).dossiers = e.dossiers :=
      (congrArg Scene.dossiers hdrop).trans (congrArg Scene.dossiers hstart)
    rw [hleft, filedIn_detachIn, hcleared, filedIn_clear, hold] at hf
    exact hf
  · have hslots : e'.slots =
        start.slots.filter fun x => !decide (x.1.home = .member m.actor.member) :=
      (congrArg Scene.slots heq).trans ((congrArg Scene.slots hclear).trans
        (congrArg Scene.slots hdrop))
    have hold : start.slots = e.slots := congrArg Scene.slots hstart
    rw [hslots, hold, List.mem_filter] at hx
    exact ⟨hx.1, by simpa using hx.2⟩

/-- A member that is taken down has its registrations removed; of those the ones in use depart. -/
theorem teardown (hc : Course p gone e₀ e) (hp : p m.actor.member)
    (hlt : m.actor.member < e.nextMember)
    (hm : m.stage.mayBecome .unloaded = true) (he' : (m.teardown e).2 = e') :
    Course p gone e₀ e' ∧ e'.nextMember = e.nextMember ∧
      (∀ t, t ∈ e'.broker.departures ↔ t ∈ e.broker.departures ∨
        t ∈ e.ticketsOf m.actor.member ∧ ∃ u, e.broker.usage? t = some u ∧ 0 < u.outstanding) ∧
      (∀ t ∈ e.ticketsOf m.actor.member, .removed t ∈ e'.history) := by
  obtain ⟨last, hmoves, heq⟩ := @Member.teardown_moves m e hm
  rw [he'] at heq
  let removed := e.removeRegistrations m.actor
  have hclear : removed.scene [] = _ := Environment.removeRegistrations_scene
  have hcourse : Course p gone e₀ removed := hc.clear hp hclear
  have hnext : removed.nextMember = e.nextMember := congrArg Scene.nextMember hclear
  have hhome : ∀ n, SlotHome.member m.actor.member = .member n → n < removed.nextMember :=
    Scene.bounded_home (hnext ▸ hlt)
  obtain ⟨-, hleads⟩ := hcourse.sound.moves hmoves hhome
  have hlast : Course p gone e₀ e' := heq ▸ (hcourse.moves hmoves hhome).detach
  have hbroker : e'.broker = last.broker := heq ▸ rfl
  have hhist : e'.history = last.history := heq ▸ rfl
  have hremoves : e.broker.Removes _ (e.broker.removeAll (e.ticketsOf m.actor.member).reverse) :=
    hc.sound.wellFormed.removeAll
  refine ⟨hlast, ?_, fun t => ?_, fun t ht => ?_⟩
  · calc e'.nextMember = last.nextMember := heq ▸ rfl
      _ = removed.nextMember := hleads.nextMember
      _ = e.nextMember := hnext
  · have hgone : removed.broker = e.broker.removeAll (e.ticketsOf m.actor.member).reverse :=
      congrArg Scene.broker hclear
    have hdep := hleads.departures t
    change t ∈ last.broker.departures ↔ t ∈ removed.broker.departures at hdep
    rw [hbroker, hdep, hgone, hremoves.departures, List.mem_reverse]
  · obtain ⟨news, hnews, -⟩ := hleads.history
    have hfirst : removed.history = e.history ++ (e.ticketsOf m.actor.member).map .removed :=
      congrArg Scene.history hclear
    rw [hhist, show last.history = removed.history ++ news from hnews, hfirst]
    exact List.mem_append_left _ (List.mem_append_right _ (List.mem_map_of_mem ht))

/-- After its registrations have been removed, a member that is taken down has no more removed. -/
theorem teardown_after (hs : e.Sound gone) (hlt : m.actor.member < e.nextMember)
    (hm : m.stage.mayBecome .unloaded = true) :
    Course (fun _ => False) gone (e.removeRegistrations m.actor) (m.teardown e).2 := by
  obtain ⟨last, hmoves, heq⟩ := @Member.teardown_moves m e hm
  have hclear : (e.removeRegistrations m.actor).scene [] = _ :=
    Environment.removeRegistrations_scene
  have hremoved : Course (· = m.actor.member) gone e (e.removeRegistrations m.actor) :=
    (refl hs).clear rfl hclear
  have hnext : (e.removeRegistrations m.actor).nextMember = e.nextMember :=
    congrArg Scene.nextMember hclear
  rw [heq]
  exact ((refl hremoved.sound).moves hmoves (Scene.bounded_home (hnext ▸ hlt))).detach

end Course

end Backplane
