import Backplane.Proofs.Lifecycle.Member
/-!
# `Backplane.Proofs.Lifecycle.Loading`: a batch being loaded, or unwound

While a batch is loaded, whatever is new in dossiers and slots belongs to its instances.  While it
is unwound no hook runs, so what is discarded stays discarded, and in the end nothing of the batch
is left.

This is `load_batch` of the `ModuleLoader`, where unwinding goes by `discard`.
-/
namespace Backplane

variable {ids : List Nat} {e₀ e e' : Environment} {n : Nat} {m : Member} {p : PlannedModule}
  {batch : Nat}

/-- A batch under way: the dossiers and slots that are not of instances from before are of the
instances in `ids`. -/
structure Batch (ids : List Nat) (e₀ e : Environment) : Prop where
  course : Course (e₀.nextMember ≤ ·) [] e₀ e
  issued : ∀ n ∈ ids, e₀.nextMember ≤ n ∧ n < e.nextMember
  dossiers : ∀ d ∈ e.dossiers, d.member < e₀.nextMember ∨ d.member ∈ ids
  slots : ∀ x ∈ e.slots, ∀ n, x.1.home = .member n → n < e₀.nextMember ∨ n ∈ ids
  departures : ∀ t, t ∈ e.broker.departures ↔ t ∈ e₀.broker.departures

/-- A batch being unwound: the records and slots that are not of instances from before are of the
instances in `ids`. -/
structure Unwinding (ids : List Nat) (e₀ e : Environment) : Prop where
  course : Course (e₀.nextMember ≤ ·) [] e₀ e
  issued : ∀ n ∈ ids, e₀.nextMember ≤ n
  filed : ∀ n t, FiledIn e.dossiers n t → n < e₀.nextMember ∨ n ∈ ids
  slots : ∀ x ∈ e.slots, ∀ n, x.1.home = .member n → n < e₀.nextMember ∨ n ∈ ids

/-! ## Unwinding -/

theorem Batch.unwinding (hb : Batch ids e₀ e) : Unwinding ids e₀ e where
  course := hb.course
  issued := fun n hn => (hb.issued n hn).1
  filed := fun _ _ ⟨d, hd, hdn, _⟩ => hdn ▸ hb.dossiers d hd
  slots := hb.slots

namespace Unwinding

theorem same (hu : Unwinding ids e₀ e) (h : e'.scene [] = e.scene []) : Unwinding ids e₀ e' := by
  have hds : e'.dossiers = e.dossiers := congrArg Scene.dossiers h
  have hslots : e'.slots = e.slots := congrArg Scene.slots h
  exact ⟨hu.course.same h, hu.issued, hds ▸ hu.filed, hslots ▸ hu.slots⟩

theorem mono {ids' : List Nat} (hu : Unwinding ids e₀ e) (h : ids ⊆ ids') (h' : ids' ⊆ ids) :
    Unwinding ids' e₀ e where
  course := hu.course
  issued := fun n hn => hu.issued n (h' hn)
  filed := fun n t hf => (hu.filed n t hf).imp_right fun hn => h hn
  slots := fun x hx n hn => (hu.slots x hx n hn).imp_right fun hn => h hn

/-- What is discarded leaves the rest of the batch as it was. -/
theorem discard (hu : Unwinding (m.actor.member :: ids) e₀ e) :
    Unwinding ids e₀ (m.discardReported e) := by
  obtain ⟨hc, -, hfiled, hslots⟩ := hu.course.discard (hu.issued _ List.mem_cons_self) rfl
  refine ⟨hc, fun n hn => hu.issued n (List.mem_cons_of_mem _ hn), fun n t hf => ?_,
    fun x hx n hn => ?_⟩
  · obtain ⟨hold, hne⟩ := hfiled n t hf
    rcases hu.filed n t hold with hlt | hn
    · exact Or.inl hlt
    · exact Or.inr ((List.mem_cons.mp hn).resolve_left hne)
  · obtain ⟨hold, hne⟩ := hslots x hx
    rcases hu.slots x hold n hn with hlt | hin
    · exact Or.inl hlt
    · exact Or.inr ((List.mem_cons.mp hin).resolve_left fun heq => hne (heq ▸ hn))

/-- When a batch has been unwound nothing is left of it. -/
theorem unwind {members : List Member} (hu : Unwinding (members.map (·.actor.member)) e₀ e) :
    Unwinding [] e₀ (unwind e members) := by
  induction members generalizing e with
  | nil => exact hu
  | cons m members ih =>
      have hwarned : Unwinding (m.actor.member :: members.map (·.actor.member)) e₀
          (e.report .warn .loader ("Unwinding module " ++ m.name)) := hu.same rfl
      exact ih hwarned.discard

end Unwinding

/-! ## Loading -/

namespace Batch

/-- A batch begins with nothing. -/
theorem start (hs : e.Sound []) : Batch [] e e where
  course := .refl hs
  issued := by simp
  dossiers := fun d hd => Or.inl (hs.chronicled.numbered d hd)
  slots := fun x hx n hn => Or.inl (hs.balanced.homes x hx n hn)
  departures := fun _ => .rfl

theorem same (hb : Batch ids e₀ e) (h : e'.scene [] = e.scene []) : Batch ids e₀ e' := by
  have hds : e'.dossiers = e.dossiers := congrArg Scene.dossiers h
  have hslots : e'.slots = e.slots := congrArg Scene.slots h
  have hnext : e'.nextMember = e.nextMember := congrArg Scene.nextMember h
  have hbroker : e'.broker = e.broker := congrArg Scene.broker h
  exact ⟨hb.course.same h, hnext ▸ hb.issued, hds ▸ hb.dossiers, hslots ▸ hb.slots,
    hbroker ▸ hb.departures⟩

/-- What an instance of the batch does. -/
theorem moves (hb : Batch ids e₀ e) (hn : n ∈ ids)
    (hm : Moves (.member n) (e.scene []) (e'.scene [])) :
    Batch ids e₀ e' := by
  have hhome : ∀ k, SlotHome.member n = .member k → k < e.nextMember :=
    Scene.bounded_home (hb.issued n hn).2
  obtain ⟨-, hl⟩ := hb.course.sound.moves hm hhome
  have hnext : e'.nextMember = e.nextMember := hl.nextMember
  have hdossiers : ∀ d ∈ e'.dossiers, d.member < e₀.nextMember ∨ d.member ∈ ids :=
    forall_member_congr (q := fun k => k < e₀.nextMember ∨ k ∈ ids) hl.members hb.dossiers
  refine ⟨hb.course.moves hm hhome, hnext ▸ hb.issued, hdossiers, fun x hx k hk => ?_,
    fun t => (hl.departures t).trans (hb.departures t)⟩
  · rcases hl.homes x hx with hx | hx | ⟨y, hy, hyx⟩
    · rw [← SlotHome.member.inj (hx.symm.trans hk)]
      exact Or.inr hn
    · simp [hx] at hk
    · exact hb.slots y hy k (hyx.trans hk)

/-- The next instance joins the batch. -/
theorem begin (hb : Batch ids e₀ e) : Batch (ids ++ [e.nextMember]) e₀ (p.begin e).2 where
  course := hb.course.extend hb.course.sound.renumber rfl (Nat.le_succ _) (List.append_nil _).symm
    (by simp)
  issued := fun n hn => by
    show e₀.nextMember ≤ n ∧ n < e.nextMember + 1
    rcases List.mem_append.mp hn with hn | hn
    · exact ⟨(hb.issued n hn).1, Nat.lt_succ_of_lt (hb.issued n hn).2⟩
    · rw [List.mem_singleton.mp hn]
      exact ⟨hb.course.later, Nat.lt_succ_self _⟩
  dossiers := fun d hd => (hb.dossiers d hd).imp_right (List.mem_append_left _)
  slots := fun x hx n hn => (hb.slots x hx n hn).imp_right (List.mem_append_left _)
  departures := hb.departures

/-- An instance of the batch gets its dossier. -/
theorem openDossier {who : Actor} {quiet : Bool} (hb : Batch ids e₀ e) (hn : who.member ∈ ids)
    (hnew : who.member ∉ e.dossiers.map (·.member)) : Batch ids e₀ (e.openDossier who quiet) := by
  have hlt := (hb.issued _ hn).2
  have hs : (e.openDossier who quiet).Sound [] := hb.course.sound.opened rfl hnew hlt
  refine ⟨hb.course.extend hs rfl (Nat.le_refl _) (List.append_nil _).symm (by simp), hb.issued,
    fun d hd => ?_,
    hb.slots, hb.departures⟩
  rcases List.mem_append.mp hd with hd | hd
  · exact hb.dossiers d hd
  · rw [List.mem_singleton.mp hd]
    exact Or.inr hn

/-- If an instance cannot be built, the slots that it would have had are emptied. -/
theorem emptySlots (hb : Batch (ids ++ [n]) e₀ e) (hnew : n ∉ e.dossiers.map (·.member)) :
    Unwinding ids e₀ (e.emptySlots n) := by
  obtain ⟨b, hempty⟩ := @Environment.emptySlots_scene e [] n
  have hn : n ∈ ids ++ [n] := by simp
  have hdone := hb.moves hn (Environment.emptySlots_moves (n := n))
  have hds : (e.emptySlots n).dossiers = e.dossiers := congrArg Scene.dossiers hempty
  have hslots : (e.emptySlots n).slots = e.slots.filter fun x => !decide (x.1.home = .member n) :=
    congrArg Scene.slots hempty
  have hother : ∀ k, k < e₀.nextMember ∨ k ∈ ids ++ [n] → k ≠ n → k < e₀.nextMember ∨ k ∈ ids := by
    intro k hk hkn
    exact hk.imp_right fun hk => by simpa [hkn] using hk
  refine ⟨hdone.course, fun k hk => (hb.issued k (List.mem_append_left _ hk)).1, fun k t hf => ?_,
    fun x hx k hk => ?_⟩
  · rw [hds] at hf
    obtain ⟨d, hd, rfl, -⟩ := hf
    exact hother _ (hb.dossiers d hd) fun heq => hnew (heq ▸ List.mem_map_of_mem hd)
  · rw [hslots, List.mem_filter] at hx
    refine hother k (hb.slots x hx.1 k hk) fun heq => ?_
    have hne : x.1.home ≠ .member n := by simpa using hx.2
    exact hne (heq ▸ hk)

end Batch

/-! ## One module of a batch -/

/-- What loading a planned module makes of it. -/
structure PlannedModule.Becomes (p : PlannedModule) (batch : Nat) (m : Member) : Prop where
  name : m.name = p.name
  unit : m.unit = p.unit.reference
  dependencies : m.dependencies = p.dependencies
  stage : m.stage = .loaded
  batch : m.batch = batch

/-- The load hook runs on a new member; if it fails the member is discarded. -/
theorem Member.load_cases (hm : m.stage = .unloaded) (env : Environment) :
    ∃ start done : Environment, start.scene [] = env.scene [] ∧
      Moves (.member m.actor.member) (start.scene []) (done.scene []) ∧
      ((∃ after, m.load env = (.ok { m with stage := .loaded }, after) ∧
          after.scene [] = done.scene []) ∨
        ∃ e, m.load env = (.error e, { m with stage := .loading }.discardReported done)) := by
  have hfirst : m.stage.mayBecome .loading = true := by rw [hm]; rfl
  obtain ⟨start, h₁, hs₁⟩ := advance_ok env hfirst
  let m₁ : Member := { m with stage := .loading }
  obtain ⟨e₂, h₂, hs₂⟩ := @advance_ok m₁ .loaded (start.runHook m₁.actor m₁.body.hooks .load).2 rfl
  refine ⟨start, (start.runHook m₁.actor m₁.body.hooks .load).2, hs₁ [], Environment.runHook_moves,
    ?_⟩
  simp only [load, h₁]
  cases (start.runHook m.actor m.body.hooks .load).1 with
  | some e => exact Or.inr ⟨e, rfl⟩
  | none =>
      refine Or.inl ?_
      simp only [m₁] at h₂
      simp only [h₂]
      exact ⟨_, rfl, hs₂ []⟩

namespace Batch

theorem member {after : Environment} {r : Except ModuleError Member}
    (hb : Batch (ids ++ [m.actor.member]) e₀ e)
    (hm : m.stage = .unloaded) (h : m.load e = (r, after)) :
    match r with
    | .ok m' => Batch (ids ++ [m.actor.member]) e₀ after ∧ m' = { m with stage := .loaded }
    | .error _ => Unwinding ids e₀ after := by
  obtain ⟨start, done, hstart, hmoves, hcases⟩ := Member.load_cases hm e
  have hdone : Batch (ids ++ [m.actor.member]) e₀ done := (hb.same hstart).moves (by simp) hmoves
  rcases hcases with ⟨last, heq, hlast⟩ | ⟨err, heq⟩
  · obtain ⟨rfl, rfl⟩ := Prod.mk.inj (heq.symm.trans h)
    exact ⟨hdone.same hlast, rfl⟩
  · obtain ⟨rfl, rfl⟩ := Prod.mk.inj (heq.symm.trans h)
    have hu : Unwinding (m.actor.member :: ids) e₀ done :=
      hdone.unwinding.mono (by simp) (by simp)
    exact @Unwinding.discard ids e₀ done { m with stage := .loading } hu

/-- Loading one module more: either it joins the batch, or nothing of it is left. -/
theorem load {after : Environment} {r : Except ModuleError Member} (hb : Batch ids e₀ e)
    (h : p.load batch e = (r, after)) :
    match r with
    | .ok m => Batch (ids ++ [m.actor.member]) e₀ after ∧ m.actor.member ∉ ids ∧ p.Becomes batch m
    | .error _ => Unwinding ids e₀ after := by
  let built := (p.begin e).2.carryOutAll e.nextMember p.blueprint.preparations
  have hmoves : Moves (.member e.nextMember) ((p.begin e).2.scene []) (built.scene []) :=
    Environment.carryOutAll_moves
  have hbuilt : Batch (ids ++ [e.nextMember]) e₀ built := hb.begin.moves (by simp) hmoves
  have hfresh : e.nextMember ∉ ids := fun hn => Nat.lt_irrefl _ (hb.issued _ hn).2
  have hnew : e.nextMember ∉ built.dossiers.map (·.member) := by
    obtain ⟨-, hl⟩ := hb.begin.course.sound.moves hmoves (Scene.bounded_home (Nat.lt_succ_self _))
    rw [show built.dossiers.map (·.member) = e.dossiers.map (·.member) from hl.members]
    intro hn
    obtain ⟨d, hd, heq⟩ := List.mem_map.mp hn
    exact Nat.lt_irrefl _ (heq ▸ hb.course.sound.chronicled.numbered d hd)
  rw [PlannedModule.load] at h
  cases hc : p.blueprint.construction.result with
  | error err =>
      simp only [hc] at h
      obtain ⟨rfl, rfl⟩ := Prod.mk.inj h
      exact hbuilt.emptySlots hnew
  | ok body =>
      simp only [hc] at h
      let there := (p.checkName body built).mark (.built (p.begin e).1 p.dependencies)
      have hthere : there.scene [] = built.scene [] := by
        show (p.checkName body built).scene [] = built.scene []
        rw [PlannedModule.checkName]
        split <;> rfl
      have hnew' : e.nextMember ∉ there.dossiers.map (·.member) := by
        rw [show there.dossiers = built.dossiers from congrArg Scene.dossiers hthere]
        exact hnew
      have hopen : Batch (ids ++ [e.nextMember]) e₀
          (there.openDossier (p.begin e).1 p.unit.isDynamic) :=
        (hbuilt.same hthere).openDossier (by simp [PlannedModule.begin]) hnew'
      have hload := hopen.member rfl h
      cases r with
      | error err => exact hload
      | ok m =>
          obtain ⟨hlast, rfl⟩ := hload
          exact ⟨hlast, hfresh, rfl, rfl, rfl, rfl, rfl⟩

end Batch

/-! ## The whole batch -/

namespace Batch

variable {done members : List Member} {plan : List PlannedModule} {after : Environment}

/-- A batch that is loaded has a member for each planned module, in order, behind those loaded
already. -/
theorem loadAll_ok (hb : Batch (done.map (·.actor.member)) e₀ e)
    (hd : (done.map (·.actor.member)).Nodup)
    (h : loadAll batch plan done e = (.ok members, after)) :
    ∃ added, members = done ++ added ∧ List.Forall₂ (PlannedModule.Becomes · batch) plan added ∧
      Batch (members.map (·.actor.member)) e₀ after ∧ (members.map (·.actor.member)).Nodup := by
  induction plan generalizing done e with
  | nil =>
      obtain ⟨hok, rfl⟩ := Prod.mk.inj h
      obtain rfl := Except.ok.inj hok
      exact ⟨[], by simp, .nil, hb, hd⟩
  | cons p plan ih =>
      rw [loadAll] at h
      cases hp : p.load batch e with
      | mk r next =>
          have hload := hb.load hp
          cases r with
          | error err => simp [hp] at h
          | ok m =>
              obtain ⟨hnext, hfresh, hbecomes⟩ := hload
              simp only [hp] at h
              have hids : (done ++ [m]).map (·.actor.member) =
                  done.map (·.actor.member) ++ [m.actor.member] := by
                simp
              have hd' : ((done ++ [m]).map (·.actor.member)).Nodup := by
                rw [hids]
                refine List.nodup_append.mpr ⟨hd, List.nodup_singleton _, ?_⟩
                intro x hx y hy
                rw [List.mem_singleton.mp hy]
                exact fun heq => hfresh (heq ▸ hx)
              obtain ⟨added, rfl, hall, hlast⟩ := ih (hids ▸ hnext) hd' h
              exact ⟨m :: added, by simp, .cons hbecomes hall, by simpa using hlast⟩

/-- A batch that fails is unwound completely. -/
theorem loadAll_error {err : LifecycleError} (hb : Batch (done.map (·.actor.member)) e₀ e)
    (h : loadAll batch plan done e = (.error err, after)) :
    Unwinding [] e₀ after ∧ ∃ p ∈ plan, ∃ x, err = .load p.name x := by
  induction plan generalizing done e with
  | nil => simp [loadAll] at h
  | cons p plan ih =>
      rw [loadAll] at h
      cases hp : p.load batch e with
      | mk r next =>
          have hload := hb.load hp
          cases r with
          | error x =>
              simp only [hp] at h
              obtain ⟨herr, rfl⟩ := Prod.mk.inj h
              refine ⟨Unwinding.unwind ?_, p, List.mem_cons_self, x, (Except.error.inj herr).symm⟩
              refine Unwinding.mono (hload.same rfl) ?_ ?_ <;> simp
          | ok m =>
              obtain ⟨hnext, -, -⟩ := hload
              simp only [hp] at h
              have hids : (done ++ [m]).map (·.actor.member) =
                  done.map (·.actor.member) ++ [m.actor.member] := by
                simp
              obtain ⟨hu, q, hq, x, heq⟩ := ih (hids ▸ hnext) h
              exact ⟨hu, q, List.mem_cons_of_mem _ hq, x, heq⟩

end Batch

end Backplane
