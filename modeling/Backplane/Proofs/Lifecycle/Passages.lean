import Backplane.Proofs.Lifecycle.Entries
import Backplane.Proofs.Lifecycle.Unloading
/-!
# `Backplane.Proofs.Lifecycle.Passages`: stages and unloading, as seen on the roll

A pass over the members, and taking members down, are sequences of passages on the roll: one for
each member whose turn comes.  Retiring registrations, restoring and removing them leaves the roll as
it is.

These are the stages of the `ModuleLoader`, `unload_all` and `unload_module`.
-/
namespace Backplane

variable {env : Environment} {m : Member} {ms front back done : List Member} {who : Actor}
  {nextBatch : Nat}

/-! ## Registrations -/

namespace Environment

theorem Detached.removeTicket {α : Type} {f : Environment → α} (hf : Detached f) {module : String}
    {t : Ticket} : f (Environment.removeTicket module env t) = f env := by
  rw [Environment.removeTicket]
  cases hw : env.withdrawTicket t with
  | ok after => exact hf.withdrawTicket hw
  | error e => exact hf.forceRemove.trans (hf.same env env.broker env.journal _)

theorem Aloof.removeRegistrations {α : Type} {f : Environment → α} (hf : Aloof f) :
    f (env.removeRegistrations who) = f env :=
  (foldl_same fun _ _ => hf.removeTicket).trans hf.clearRecords

theorem Detached.retireAll {α : Type} {f : Environment → α} (hf : Detached f) {module : String}
    {past ts : List Ticket} : f (retireAll module past ts env).2 = f env := by
  induction ts generalizing past env with
  | nil => rfl
  | cons t ts ih =>
      rw [Environment.retireAll]
      split
      · exact ih.trans hf.broker
      · exact hf.broker
      · exact ih.trans (hf.same env env.broker env.journal _)

theorem retireAll_annals {module : String} {past ts : List Ticket} :
    (retireAll module past ts env).2.annals = env.annals := inert_annals.toDetached.retireAll

theorem Detached.retireMembers {α : Type} {f : Environment → α} (hf : Detached f) :
    f (Backplane.retireMembers done ms env).2 = f env := by
  induction ms generalizing done env with
  | nil => rfl
  | cons m ms ih =>
      have hone : f (env.retireRegistrations m.actor).2 = f env := hf.retireAll
      rw [Backplane.retireMembers]
      cases (env.retireRegistrations m.actor).1 with
      | none => exact ih.trans hone
      | some x =>
          refine Eq.trans ?_ hone
          show f (done.foldl _ (env.retireRegistrations m.actor).2) = _
          generalize (env.retireRegistrations m.actor).2 = start
          induction done generalizing start with
          | nil => rfl
          | cons x done ihd => exact (ihd _).trans hf.broker

theorem retireMembers_annals : (retireMembers done ms env).2.annals = env.annals :=
  inert_annals.toDetached.retireMembers

theorem detached_ticketsOf {n : Nat} : Detached (·.ticketsOf n) := ⟨fun _ _ _ _ => rfl⟩

end Environment

/-! ## One member -/

namespace Member

theorem runReported_annals {hook : Hook} : ∃ f, (m.runReported hook env).annals =
    (env.turns ++ hookTurns m.actor hook f, env.nextMember) := by
  refine ⟨(env.runHook m.actor m.body.hooks hook).1, ?_⟩
  refine Eq.trans ?_ Environment.runHook_annals
  rw [runReported]
  cases (env.runHook m.actor m.body.hooks hook).1 with
  | none => rfl
  | some e => rfl

theorem preUnload_annals (hm : m.stage = .postLoaded) :
    ∃ e' f, m.preUnload env = (.ok (), { m with stage := .preUnloaded }, e') ∧
      e'.annals = (env.turns ++ hookTurns m.actor .preUnload f, env.nextMember) := by
  have hfirst : m.stage.mayBecome .preUnloading = true := by rw [hm]; rfl
  obtain ⟨e₁, h₁, ha₁⟩ := advance_annals env hfirst
  obtain ⟨hturns, hnext⟩ := Prod.mk.inj ha₁
  let m₁ : Member := { m with stage := .preUnloading }
  obtain ⟨f, hrun⟩ := @runReported_annals e₁ m₁ .preUnload
  obtain ⟨e₂, h₂, ha₂⟩ := @advance_annals m₁ .preUnloaded (m₁.runReported .preUnload e₁) rfl
  refine ⟨e₂, f, ?_, ?_⟩
  · simp only [preUnload, h₁]
    simp only [m₁] at h₂
    simp only [h₂]
  · rw [ha₂, hrun, hturns, hnext]

theorem teardown_annals (hm : m.stage.mayBecome .unloaded = true) :
    (m.teardown env).1 = .ok () ∧ ∃ f, (m.teardown env).2.annals =
      (env.turns ++ parting m.actor f, env.nextMember) := by
  obtain ⟨f, hrun⟩ := @runReported_annals (env.removeRegistrations m.actor) m .unload
  have hannals : (env.removeRegistrations m.actor).annals = env.annals :=
    Environment.inert_annals.removeRegistrations
  obtain ⟨hturns, hnext⟩ := Prod.mk.inj hannals
  obtain ⟨e₂, h₂, ha₂⟩ :=
    advance_annals (m.runReported .unload (env.removeRegistrations m.actor)) hm
  rw [hrun, hturns, hnext] at ha₂
  obtain ⟨hturns₂, hnext₂⟩ := Prod.mk.inj ha₂
  simp only [teardown, h₂, leave]
  refine ⟨trivial, f, ?_⟩
  rw [detach_annals, dropInstance_annals]
  show (e₂.turns ++ _, e₂.nextMember) = _
  rw [hturns₂, hnext₂, parting, List.append_assoc]

end Member

/-! ## Passes -/

theorem attachAll_passages : ∃ n ms' e', attachAll ms env = (.ok n, ms', e') ∧
    (rollOf (front ++ ms) env nextBatch).Passages (rollOf (front ++ ms') e' nextBatch) := by
  induction ms generalizing front env with
  | nil => exact ⟨0, [], env, rfl, .refl⟩
  | cons m ms ih =>
      rw [attachAll]
      by_cases hstage : m.stage = .loaded
      · have hnext : m.stage.mayBecome .postLoaded = true := by rw [hstage]; rfl
        obtain ⟨e₁, hadv, ha⟩ := Member.advance_annals (m.runReported .postLoad env) hnext
        obtain ⟨f, hrun⟩ := @Member.runReported_annals env m .postLoad
        let m' : Member := { m with stage := .postLoaded }
        have hfirst : (rollOf (front ++ m :: ms) env nextBatch).Passage
            (rollOf ((front ++ [m']) ++ ms) e₁ nextBatch) := by
          rw [rollOf_eq (ha.trans hrun), List.append_assoc, List.singleton_append, List.map_append,
            List.map_cons]
          refine .attach (s := rollOf (front ++ m :: ms) env nextBatch) (l := m.life) ?_ hstage
          rw [rollOf, List.map_append, List.map_cons]
        obtain ⟨n, ms', e', heq, hrest⟩ := @ih e₁ (front ++ [m'])
        refine ⟨n + 1, m' :: ms', e', ?_, ?_⟩
        · simp only [hstage, if_true, hadv, heq, Except.map, m']
        · rw [List.append_assoc, List.singleton_append] at hrest
          exact .head hfirst (by simpa using hrest)
      · obtain ⟨n, ms', e', heq, hrest⟩ := @ih env (front ++ [m])
        refine ⟨n, m :: ms', e', ?_, by simpa using hrest⟩
        simp only [hstage, if_false, heq]

/-- One member that has been attached is detached. -/
theorem detach_passage {e' : Environment} {f : Option ModuleError} (hm : m.stage = .postLoaded)
    (ha : e'.annals = (env.turns ++ hookTurns m.actor .preUnload f, env.nextMember)) :
    (rollOf (front ++ m :: back) env nextBatch).Passage
      (rollOf (front ++ { m with stage := .preUnloaded } :: back) e' nextBatch) := by
  rw [rollOf_eq ha, List.map_append, List.map_cons]
  refine .detach (s := rollOf (front ++ m :: back) env nextBatch) (l := m.life) ?_ hm
  rw [rollOf, List.map_append, List.map_cons]

/-- The members stand in load order on the roll, and are detached the last one first. -/
theorem detachAll_passages : ∃ n ms' e', detachAll ms env = (.ok n, ms', e') ∧
    (rollOf (ms.reverse ++ back) env nextBatch).Passages
      (rollOf (ms'.reverse ++ back) e' nextBatch) := by
  induction ms generalizing back env with
  | nil => exact ⟨0, [], env, rfl, .refl⟩
  | cons m ms ih =>
      rw [detachAll, List.reverse_cons, List.append_assoc, List.singleton_append]
      by_cases hstage : m.stage = .postLoaded
      · obtain ⟨e₁, f, hpre, ha⟩ := @Member.preUnload_annals env m hstage
        let m' : Member := { m with stage := .preUnloaded }
        obtain ⟨n, ms', e', heq, hrest⟩ := @ih e₁ (m' :: back)
        refine ⟨n + 1, m' :: ms', e', ?_, ?_⟩
        · simp only [hstage, if_true, hpre, heq, Except.map, m']
        · rw [List.reverse_cons, List.append_assoc, List.singleton_append]
          exact .head (detach_passage hstage ha) hrest
      · obtain ⟨n, ms', e', heq, hrest⟩ := @ih env (m :: back)
        refine ⟨n, m :: ms', e', ?_, ?_⟩
        · simp only [hstage, if_false, heq]
        · rw [List.reverse_cons, List.append_assoc, List.singleton_append]
          exact hrest

/-! ## Taking down -/

/-- A member that no later one needs is taken down. -/
theorem teardown_passage (hm : m.stage = .loaded ∨ m.stage = .preUnloaded)
    (hfree : ∀ x ∈ back, m.name ∉ x.dependencies) :
    (m.teardown env).1 = .ok () ∧ (rollOf (front ++ m :: back) env nextBatch).Passage
      (rollOf (front ++ back) (m.teardown env).2 nextBatch) := by
  have hnext : m.stage.mayBecome .unloaded = true := by
    rcases hm with hm | hm <;> rw [hm] <;> rfl
  obtain ⟨hok, f, ha⟩ := @Member.teardown_annals env m hnext
  refine ⟨hok, ?_⟩
  rw [rollOf_eq ha, List.map_append]
  refine .leave (s := rollOf (front ++ m :: back) env nextBatch) (l := m.life) ?_ hm ?_
  · rw [rollOf, List.map_append, List.map_cons]
  · intro l hl
    obtain ⟨x, hx, rfl⟩ := List.mem_map.mp hl
    exact hfree x hx

theorem tearDownAll_passages (hms : ∀ m ∈ ms, m.stage = .loaded ∨ m.stage = .preUnloaded) :
    ∃ names e', tearDownAll ms env = (.ok names, [], e') ∧
      (rollOf ms.reverse env nextBatch).Passages (rollOf [] e' nextBatch) := by
  induction ms generalizing env with
  | nil => exact ⟨[], env, rfl, .refl⟩
  | cons m ms ih =>
      obtain ⟨hok, hfirst⟩ := @teardown_passage env m ms.reverse [] nextBatch
        (hms m List.mem_cons_self) (by simp)
      rw [List.append_nil] at hfirst
      obtain ⟨names, e', heq, hrest⟩ :=
        @ih (m.teardown env).2 fun x hx => hms x (List.mem_cons_of_mem _ hx)
      refine ⟨m.name :: names, e', ?_, ?_⟩
      · simp only [tearDownAll, hok, heq, Except.map]
      · rw [List.reverse_cons]
        exact .head hfirst hrest

namespace Rack

variable {r : Rack}

/-! ## Requests -/

theorem postLoad_passages : r.roll.Passages r.postLoad.2.roll := by
  obtain ⟨n, ms', e', heq, hp⟩ := @attachAll_passages r.env r.members [] r.nextBatch
  simp only [postLoad, heq]
  exact hp

theorem preUnload_passages : r.roll.Passages r.preUnload.2.roll := by
  obtain ⟨n, ms', e', heq, hp⟩ := @detachAll_passages r.env r.members.reverse [] r.nextBatch
  rw [List.reverse_reverse, List.append_nil, List.append_nil] at hp
  simp only [preUnload, heq]
  exact hp

theorem retireAndTearDown_passages
    (hms : ∀ m ∈ r.members, m.stage = .loaded ∨ m.stage = .preUnloaded) :
    r.roll.Passages r.retireAndTearDown.2.roll := by
  have hretired := @Environment.retireMembers_annals r.env r.members.reverse []
  have hsame := @rollOf_congr _ _ r.members r.nextBatch hretired
  rw [retireAndTearDown]
  cases hret : (retireMembers [] r.members.reverse r.env).1 with
  | some x =>
      simp only
      show r.roll.Passages (rollOf r.members (retireMembers [] r.members.reverse r.env).2 r.nextBatch)
      rw [hsame]
      exact .refl
  | none =>
      obtain ⟨names, e', heq, hp⟩ := @tearDownAll_passages
        (retireMembers [] r.members.reverse r.env).2 r.members.reverse r.nextBatch
        fun m hm => hms m (List.mem_reverse.mp hm)
      rw [List.reverse_reverse, hsame] at hp
      simp only [tearDown, heq]
      exact hp

theorem Sound.unloadAll_passages (hs : r.Sound) : r.roll.Passages r.unloadAll.2.roll := by
  rw [Rack.unloadAll]
  cases hfind : r.members.reverse.find? fun m => m.stage = .postLoaded with
  | some m => exact .refl
  | none =>
      have hms : ∀ m ∈ r.members, m.stage = .loaded ∨ m.stage = .preUnloaded := by
        intro m hm
        have hne : m.stage ≠ .postLoaded := by
          simpa using List.find?_eq_none.mp hfind m (List.mem_reverse.mpr hm)
        rcases (hs.settled m hm).stage with hl | hl | hl
        · exact Or.inl hl
        · exact absurd hl hne
        · exact Or.inr hl
      exact @retireAndTearDown_passages (r.mapEnv fun env => env.report .info .loader
        ("Unloading " ++ toString r.members.length ++ " modules")) hms

theorem without_split (hd : ((front ++ m :: back).map (·.actor.member)).Nodup) :
    without (front ++ m :: back) m = front ++ back := by
  rw [List.map_append, List.map_cons, List.nodup_middle, List.nodup_cons, ← List.map_append] at hd
  have hkept : (front ++ back).filter (fun x => x.actor.member ≠ m.actor.member) = front ++ back := by
    refine List.filter_eq_self.mpr fun x hx => ?_
    have hne : x.actor.member ≠ m.actor.member := fun heq => hd.1 (heq ▸ List.mem_map_of_mem hx)
    simpa using hne
  rw [List.filter_append] at hkept
  simpa [without] using hkept

/-- A member that nobody needs is made ready, if it is not, and taken down. -/
theorem takeOut_passages (hm : m ∈ r.members) (hd : (r.members.map (·.actor.member)).Nodup)
    (hstages : m.stage = .loaded ∨ m.stage = .postLoaded ∨ m.stage = .preUnloaded)
    (hfree : ∀ x ∈ r.members, m.name ∉ x.dependencies) :
    r.roll.Passages (r.takeOut m).2.roll := by
  obtain ⟨front, back, hsplit⟩ := List.append_of_mem hm
  have hwithout : without r.members m = front ++ back := by
    rw [hsplit] at hd ⊢
    exact without_split hd
  have hback : ∀ x ∈ back, m.name ∉ x.dependencies := fun x hx => hfree x (by simp [hsplit, hx])
  rw [roll, hsplit]
  by_cases hstage : m.stage = .postLoaded
  · obtain ⟨e₁, f, hpre, ha⟩ := @Member.preUnload_annals r.env m hstage
    let m' : Member := { m with stage := .preUnloaded }
    obtain ⟨hok, hlast⟩ := @teardown_passage e₁ m' front back r.nextBatch (Or.inr rfl) hback
    have hready : m.makeReady r.env = (.ok (), m', e₁) := by
      rw [Member.makeReady, if_pos hstage]
      exact hpre
    rw [takeOut_eq hready]
    show Roll.Passages _ (rollOf (without r.members m) _ _)
    rw [hwithout]
    exact .head (detach_passage hstage ha) (.single hlast)
  · have hleft : m.stage = .loaded ∨ m.stage = .preUnloaded := by
      rcases hstages with hl | hl | hl
      · exact Or.inl hl
      · exact absurd hl hstage
      · exact Or.inr hl
    obtain ⟨hok, hlast⟩ := @teardown_passage r.env m front back r.nextBatch hleft hback
    have hready : m.makeReady r.env = (.ok (), m, r.env) := by
      rw [Member.makeReady, if_neg hstage]
    rw [takeOut_eq hready]
    show Roll.Passages _ (rollOf (without r.members m) _ _)
    rw [hwithout]
    exact .single hlast

theorem Sound.unloadMember_passages (hs : r.Sound) (hm : m ∈ r.members)
    (hfree : ∀ x ∈ r.members, m.name ∉ x.dependencies) :
    r.roll.Passages (r.unloadMember m).2.roll := by
  have hretired : (r.env.retireRegistrations m.actor).2.annals = r.env.annals :=
    Environment.retireAll_annals
  let hidden : Rack := { r with env := (r.env.retireRegistrations m.actor).2 }
  have hsame : hidden.roll = r.roll := rollOf_congr hretired
  rw [Rack.unloadMember]
  cases (r.env.retireRegistrations m.actor).1 with
  | none =>
      rw [← hsame]
      exact takeOut_passages (r := hidden) hm hs.distinct (hs.settled m hm).stage hfree
  | some x =>
      show r.roll.Passages hidden.roll
      rw [hsame]

theorem Sound.unloadNamed_passages (hs : r.Sound) (name : String) :
    r.roll.Passages (r.unloadNamed name).2.roll := by
  rw [Rack.unloadNamed]
  cases hfind : r.find? name with
  | none => exact .refl
  | some m =>
      obtain ⟨hm, rfl⟩ := mem_of_find? hfind
      simp only
      cases hdep : r.dependentsOf m.name with
      | cons d ds => exact .refl
      | nil =>
          refine hs.unloadMember_passages hm fun x hx hneed => ?_
          have hin : x.name ∈ r.dependentsOf m.name :=
            List.mem_map_of_mem (List.mem_filter.mpr ⟨hx, by simpa using hneed⟩)
          simp [hdep] at hin

theorem Sound.unload_passages (hs : r.Sound) (name : String) :
    r.roll.Passages (r.unload name).2.roll := by
  rw [unload_eq]
  cases claimAll r.env.claims [name] with
  | error other => exact .refl
  | ok claims =>
      have hpassages := (hs.withClaims claims).unloadNamed_passages name
      exact hpassages

end Rack

end Backplane
