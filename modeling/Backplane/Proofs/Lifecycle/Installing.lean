import Backplane.Lifecycle.Stages
import Backplane.Proofs.Environment.Installing
/-!
# `Backplane.Proofs.Lifecycle.Installing`: batches that do not fail

A module whose hook on loading keeps no reference is loaded if there is room for what it publishes.
If there is room for all that the modules of a batch publish, the batch is loaded, and whoever held
no reference before holds none after.  The same is true of a pass over members whose other hooks
keep none either.

This is `load_batch` of the `ModuleLoader`, and a pass is one of its two stages.
-/
namespace Backplane

open Environment (Gains)

/-- Whether a module can be built, and its hook on loading publishes exclusive services of some
capabilities, while no hook of it ever takes a reference. -/
structure Blueprint.Installs (b : Blueprint) (cs : List Capability) : Prop where
  prepared : b.preparations = []
  built : ∃ x, b.construction = .built x ∧ x.hooks.load.Installs cs ∧
    ∀ hook, hook ≠ .load → (x.hooks.of hook).Installs []

/-- Whether no hook of a member that is loaded takes a reference. -/
def Member.Modest (m : Member) : Prop := ∀ hook, hook ≠ .load → (m.body.hooks.of hook).Installs []

variable {e : Environment} {cs : List Capability} {m : Member} {ms : List Member} {hook : Hook}

/-! ## One member -/

namespace Member

theorem advance_gains (e : Environment) {next : Stage} (h : m.stage.mayBecome next = true) :
    ∃ e', m.advance next e = .ok ({ m with stage := next }, e') ∧ Gains [] e e' :=
  ⟨_, if_pos h, Gains.refl.same rfl rfl⟩

theorem load_gains (hm : m.stage = .unloaded) (hload : m.body.hooks.load.Installs cs)
    (hroom : e.broker.HasRoom cs) :
    ∃ e', m.load e = (.ok { m with stage := .loaded }, e') ∧ Gains cs e e' := by
  have hmay : m.stage.mayBecome .loading = true := by
    rw [hm]
    rfl
  obtain ⟨e₁, hfirst, hbegun⟩ := advance_gains e hmay
  have hhook : (m.body.hooks.of .load).Installs cs := hload
  obtain ⟨e₂, hrun, hpublished⟩ := Environment.runHook_gains m.actor hhook (hbegun.hasRoom hroom)
  let m₁ : Member := { m with stage := .loading }
  have hmay₁ : m₁.stage.mayBecome .loaded = true := rfl
  obtain ⟨e₃, hlast, hdone⟩ := advance_gains e₂ hmay₁
  have hall : Gains cs e e₃ := by
    have hthrough := (hbegun.trans hpublished).trans hdone
    rwa [List.nil_append, List.append_nil] at hthrough
  refine ⟨e₃.report .info .loader
    ("Module " ++ m.name ++ " v" ++ m.body.version ++ " loaded from unit " ++ m.unit), ?_,
    hall.same rfl rfl⟩
  rw [Member.load, hfirst]
  simp only [hrun]
  rw [hlast]
  rfl

theorem runReported_gains (hm : m.Modest) (hhook : hook ≠ .load) (e : Environment) :
    Gains [] e (m.runReported hook e) := by
  obtain ⟨e', hrun, hgains⟩ := Environment.runHook_gains m.actor (hm hook hhook) e.broker.hasRoom_nil
  rw [Member.runReported, hrun]
  exact hgains

theorem preUnload_gains (hm : m.Modest) (hstage : m.stage = .postLoaded) (e : Environment) :
    ∃ e', m.preUnload e = (.ok (), { m with stage := .preUnloaded }, e') ∧ Gains [] e e' := by
  have hmay : m.stage.mayBecome .preUnloading = true := by
    rw [hstage]
    rfl
  obtain ⟨e₁, hfirst, hbegun⟩ := advance_gains e hmay
  let m₁ : Member := { m with stage := .preUnloading }
  have hmodest : m₁.Modest := hm
  have hlater : Hook.preUnload ≠ .load := by decide
  have hrun := runReported_gains hmodest hlater e₁
  have hmay₁ : m₁.stage.mayBecome .preUnloaded = true := rfl
  obtain ⟨e₂, hlast, hdone⟩ := advance_gains (m₁.runReported .preUnload e₁) hmay₁
  refine ⟨e₂, ?_, (hbegun.trans hrun).trans hdone⟩
  rw [Member.preUnload, hfirst]
  simp only
  rw [hlast]

end Member

/-- A module is built and loaded if there is room for what it publishes. -/
theorem PlannedModule.load_gains {p : PlannedModule} (batch : Nat) (hp : p.blueprint.Installs cs)
    (hroom : e.broker.HasRoom cs) :
    ∃ m e', p.load batch e = (.ok m, e') ∧ m.Modest ∧ Gains cs e e' := by
  obtain ⟨hprepared, x, hbuilt, hload, hothers⟩ := hp
  let who : Actor := ⟨e.nextMember, p.name, p.blueprint.watched⟩
  let there := (p.checkName x (p.begin e).2).mark (.built who p.dependencies)
  have hopened : Gains [] e (there.openDossier who p.unit.isDynamic) := by
    have hsame : ∃ log, p.checkName x (p.begin e).2 = { (p.begin e).2 with log } := by
      unfold PlannedModule.checkName
      split <;> exact ⟨_, rfl⟩
    obtain ⟨log, hlog⟩ := hsame
    refine Gains.refl.same ?_ ?_ <;> simp only [there, hlog] <;> rfl
  let m : Member :=
    { actor := who, body := x, unit := p.unit.reference, batch, dependencies := p.dependencies }
  have hnew : m.stage = .unloaded := rfl
  obtain ⟨e', hloaded, hgains⟩ := Member.load_gains hnew hload (hopened.hasRoom hroom)
  refine ⟨{ m with stage := .loaded }, e', ?_, hothers, hopened.trans hgains⟩
  rw [PlannedModule.load, hprepared, hbuilt]
  exact hloaded

/-! ## Batches and passes -/

/-- What modules of a batch publish, one after another, going by what modules of a name publish. -/
def offers (offer : String → List Capability) (plan : List PlannedModule) : List Capability :=
  plan.flatMap fun p => offer p.name

theorem loadAll_gains {offer : String → List Capability} {plan : List PlannedModule} {batch : Nat}
    {done : List Member} (hplan : ∀ p ∈ plan, p.blueprint.Installs (offer p.name))
    (hroom : e.broker.HasRoom (offers offer plan)) :
    ∃ added e', loadAll batch plan done e = (.ok (done ++ added), e') ∧
      (∀ m ∈ added, m.Modest) ∧ Gains (offers offer plan) e e' := by
  induction plan generalizing done e with
  | nil => exact ⟨[], e, by rw [loadAll, List.append_nil], by simp, .refl⟩
  | cons p plan ih =>
      have hcons : offers offer (p :: plan) = offer p.name ++ offers offer plan := rfl
      rw [hcons] at hroom ⊢
      have hfirst : e.broker.HasRoom (offer p.name) :=
        ⟨fun c hc => hroom.free c (List.mem_append_left _ hc), (List.nodup_append.mp hroom.distinct).1⟩
      obtain ⟨m, e₁, hload, hmodest, hone⟩ :=
        PlannedModule.load_gains batch (hplan p List.mem_cons_self) hfirst
      have hlater : ∀ q ∈ plan, q.blueprint.Installs (offer q.name) :=
        fun q hq => hplan q (List.mem_cons_of_mem _ hq)
      obtain ⟨added, e', hrest, hall, hgains⟩ := @ih e₁ (done ++ [m]) hlater (hone.hasRoom hroom)
      refine ⟨m :: added, e', ?_, ?_, hone.trans hgains⟩
      · rw [loadAll, hload]
        simp only
        rw [hrest, List.append_assoc, List.singleton_append]
      · intro x hx
        rcases List.mem_cons.mp hx with rfl | hx
        · exact hmodest
        · exact hall x hx

theorem attachAll_gains (hms : ∀ m ∈ ms, m.Modest) : Gains [] e (attachAll ms e).2.2 := by
  induction ms generalizing e with
  | nil => exact .refl
  | cons m ms ih =>
      have hm := hms m List.mem_cons_self
      have hrest : ∀ x ∈ ms, x.Modest := fun x hx => hms x (List.mem_cons_of_mem _ hx)
      rw [attachAll]
      by_cases hstage : m.stage = .loaded
      · have hmay : m.stage.mayBecome .postLoaded = true := by
          rw [hstage]
          rfl
        have hlater : Hook.postLoad ≠ .load := by decide
        have hrun := Member.runReported_gains hm hlater e
        obtain ⟨e₁, hadvance, hmoved⟩ := Member.advance_gains (m.runReported .postLoad e) hmay
        simp only [if_pos hstage, hadvance]
        exact (hrun.trans hmoved).trans (ih hrest)
      · simp only [if_neg hstage]
        exact ih hrest

theorem detachAll_gains (hms : ∀ m ∈ ms, m.Modest) : Gains [] e (detachAll ms e).2.2 := by
  induction ms generalizing e with
  | nil => exact .refl
  | cons m ms ih =>
      have hm := hms m List.mem_cons_self
      have hrest : ∀ x ∈ ms, x.Modest := fun x hx => hms x (List.mem_cons_of_mem _ hx)
      rw [detachAll]
      by_cases hstage : m.stage = .postLoaded
      · obtain ⟨e₁, hpre, hready⟩ := Member.preUnload_gains hm hstage e
        simp only [if_pos hstage, hpre]
        exact hready.trans (ih hrest)
      · simp only [if_neg hstage]
        exact ih hrest

end Backplane
