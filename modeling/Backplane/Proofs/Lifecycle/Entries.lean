import Backplane.Proofs.Environment.Annals
import Backplane.Proofs.Lifecycle.Rack
import Backplane.Proofs.Lifecycle.Roll
import Backplane.Proofs.Plan.Basic
/-!
# `Backplane.Proofs.Lifecycle.Entries`: loading, as seen on the roll

Loading a batch, whether it succeeds or is unwound, is a sequence of entries on the roll.  A planned
module finds there all that it depends on, because the plan has it behind that.

This is `load_batch` of the `ModuleLoader`.
-/
namespace Backplane

variable {env env' : Environment} {m : Member} {hook : Hook} {who : Actor} {n batch : Nat}

/-! ## What befalls a member -/

namespace Environment

theorem foldl_same {α : Type} {g : Environment → α} {f : Environment → Ticket → Environment}
    {ts : List Ticket} (hf : ∀ e t, g (f e t) = g e) : g (ts.foldl f env) = g env := by
  induction ts generalizing env with
  | nil => rfl
  | cons t ts ih => exact ih.trans (hf env t)

theorem Detached.forceRemove {α : Type} {f : Environment → α} (hf : Detached f) {module : String}
    {t : Ticket} : f (Environment.forceRemove module env t) = f env := by
  unfold Environment.forceRemove
  simp only
  split
  · exact hf.same env _ env.journal _
  · exact hf.broker

namespace Aloof

variable {α : Type} {f : Environment → α} (hf : Aloof f)
include hf

theorem clearRecords : f (env.clearRecords n) = f env :=
  hf.filing env _ env.hosted env.tickets _

theorem forceRemoveRegistrations : f (env.forceRemoveRegistrations who) = f env :=
  (foldl_same fun _ _ => hf.forceRemove).trans hf.clearRecords

end Aloof

theorem aloof_services : Aloof Environment.services := ⟨⟨fun _ _ _ _ => rfl⟩, fun _ _ _ _ _ => rfl⟩

end Environment

namespace Member

theorem advance_annals {next : Stage} (env : Environment) (h : m.stage.mayBecome next = true) :
    ∃ env', m.advance next env = .ok ({ m with stage := next }, env') ∧ env'.annals = env.annals :=
  ⟨_, if_pos h, rfl⟩

theorem dropInstance_annals :
    (m.dropInstance env).annals = (env.turns ++ [.dropped m.actor], env.nextMember) :=
  Environment.emptySlots_annals

theorem detach_annals : (m.detach env).annals = env.annals := rfl

theorem discardReported_annals :
    (m.discardReported env).annals = (env.turns ++ [.dropped m.actor], env.nextMember) := by
  obtain ⟨log, log', heq⟩ := @discardReported_eq m env
  rw [heq]
  calc ((m.dropInstance { env with log }).forceRemoveRegistrations m.actor).annals
    _ = (m.dropInstance { env with log }).annals :=
      Environment.inert_annals.forceRemoveRegistrations
    _ = (env.turns ++ [.dropped m.actor], env.nextMember) := dropInstance_annals

/-- A new member has its load hook; if that fails it is dropped. -/
theorem load_annals (hm : m.stage = .unloaded) :
    (∃ after, m.load env = (.ok { m with stage := .loaded }, after) ∧
      after.annals = (env.turns ++ hookTurns m.actor .load none, env.nextMember)) ∨
    ∃ e after, m.load env = (.error e, after) ∧ after.annals =
      (env.turns ++ (hookTurns m.actor .load (some e) ++ [.dropped m.actor]), env.nextMember) := by
  have hfirst : m.stage.mayBecome .loading = true := by rw [hm]; rfl
  obtain ⟨e₁, h₁, ha₁⟩ := advance_annals env hfirst
  let m₁ : Member := { m with stage := .loading }
  have hrun := @Environment.runHook_annals e₁ m₁.actor m₁.body.hooks .load
  obtain ⟨hturns₁, hnext₁⟩ := Prod.mk.inj ha₁
  rw [hturns₁, hnext₁] at hrun
  obtain ⟨e₂, h₂, ha₂⟩ := @advance_annals m₁ .loaded (e₁.runHook m₁.actor m₁.body.hooks .load).2 rfl
  simp only [load, h₁]
  cases hr : (e₁.runHook m.actor m.body.hooks .load).1 with
  | some e =>
      refine Or.inr ⟨e, _, rfl, ?_⟩
      obtain ⟨hturns, hnext⟩ := Prod.mk.inj hrun
      refine discardReported_annals.trans ?_
      simp only [m₁] at hturns hnext ⊢
      rw [hturns, hnext, hr, List.append_assoc]
      rfl
  | none =>
      refine Or.inl ?_
      simp only [m₁] at h₂ hrun ha₂
      simp only [h₂]
      refine ⟨_, rfl, ?_⟩
      rw [hr] at hrun
      exact ha₂.trans hrun

/-- What the roll says of a member. -/
def life (m : Member) : Life where
  who := m.actor
  needs := m.dependencies
  batch := m.batch
  stage := m.stage

end Member

/-! ## Rolls of members -/

/-- The roll of members in an environment. -/
def rollOf (ms : List Member) (env : Environment) (nextBatch : Nat) : Roll where
  lives := ms.map Member.life
  turns := env.turns
  nextMember := env.nextMember
  nextBatch

def Rack.roll (r : Rack) : Roll := rollOf r.members r.env r.nextBatch

section Rolls

variable {ms done members : List Member} {nextBatch : Nat} {plan : List PlannedModule}
  {p : PlannedModule} {due : String → List String → Prop}

theorem names_rollOf : (rollOf ms env nextBatch).names = ms.map Member.name := by
  simp only [Roll.names, Roll.posts, rollOf, List.map_map]
  rfl

theorem rollOf_eq {turns : List Turn} {next : Nat} (h : env.annals = (turns, next)) :
    rollOf ms env nextBatch = ⟨ms.map Member.life, turns, next, nextBatch⟩ := by
  obtain ⟨rfl, rfl⟩ := Prod.mk.inj h
  rfl

theorem rollOf_congr (h : env'.annals = env.annals) :
    rollOf ms env' nextBatch = rollOf ms env nextBatch :=
  rollOf_eq h

/-! ## One module -/

/-- The environment in which a planned module has been built. -/
def PlannedModule.there (p : PlannedModule) (env : Environment) (body : Instance) : Environment :=
  ((p.checkName body
      ((p.begin env).2.carryOutAll env.nextMember p.blueprint.preparations)).mark
    (.built (p.begin env).1 p.dependencies)).openDossier (p.begin env).1 p.unit.isDynamic

theorem PlannedModule.there_annals {body : Instance} : (p.there env body).annals
    = (env.turns ++ [.built (p.begin env).1 p.dependencies], env.nextMember + 1) := by
  have hbuilt : ((p.begin env).2.carryOutAll env.nextMember p.blueprint.preparations).annals
      = (env.turns, env.nextMember + 1) :=
    Environment.carryOutAll_annals
  have hcheck : ∀ e : Environment, (p.checkName body e).annals = e.annals := by
    intro e
    rw [checkName]
    split <;> rfl
  obtain ⟨hturns, hnext⟩ := Prod.mk.inj ((hcheck _).trans hbuilt)
  refine Prod.ext ?_ hnext
  show (p.checkName body _).turns ++ _ = _
  rw [hturns]

/-- Loading a planned module is one entry: it joins, or fails, or is not even built. -/
theorem PlannedModule.load_entry {r : Except ModuleError Member}
    (hp : p.Follows (ms.map Member.name)) (hdue : due p.name p.dependencies)
    (hbatch : batch + 1 = nextBatch) (h : p.load batch env = (r, env')) :
    match r with
    | .ok m => Roll.Entry due (rollOf ms env nextBatch) (rollOf (ms ++ [m]) env' nextBatch) ∧
      m.name = p.name ∧ m.stage = .loaded
    | .error _ => Roll.Entry due (rollOf ms env nextBatch) (rollOf ms env' nextBatch) := by
  have hname : p.name ∉ (rollOf ms env nextBatch).names := names_rollOf ▸ hp.1
  have hneeds : ∀ x ∈ p.dependencies, x ∈ (rollOf ms env nextBatch).names := names_rollOf ▸ hp.2
  rw [PlannedModule.load] at h
  cases hc : p.blueprint.construction.result with
  | error e =>
      simp only [hc] at h
      obtain ⟨rfl, rfl⟩ := Prod.mk.inj h
      let built := (p.begin env).2.carryOutAll (p.begin env).1.member p.blueprint.preparations
      have hannals : (built.emptySlots (p.begin env).1.member).annals
          = (env.turns, env.nextMember + 1) :=
        Environment.emptySlots_annals.trans Environment.carryOutAll_annals
      show Roll.Entry due _ (rollOf ms (built.emptySlots (p.begin env).1.member) nextBatch)
      rw [rollOf_eq hannals]
      exact .skip
  | ok body =>
      simp only [hc] at h
      obtain ⟨hturns, hnext⟩ := Prod.mk.inj (@there_annals env p body)
      let m : Member :=
        { actor := (p.begin env).1, body, unit := p.unit.reference, batch,
          dependencies := p.dependencies }
      have hload : m.load (p.there env body) = (r, env') := h
      rcases @Member.load_annals (p.there env body) m rfl with
        ⟨after, heq, hannals⟩ | ⟨e, after, heq, hannals⟩
      · obtain ⟨rfl, rfl⟩ := Prod.mk.inj (heq.symm.trans hload)
        refine ⟨?_, rfl, rfl⟩
        rw [hturns, hnext, List.append_assoc] at hannals
        rw [rollOf_eq hannals, List.map_append, List.map_singleton]
        exact .join (s := rollOf ms env nextBatch) rfl hname hneeds hdue rfl hbatch
      · obtain ⟨rfl, rfl⟩ := Prod.mk.inj (heq.symm.trans hload)
        rw [hturns, hnext, List.append_assoc] at hannals
        show Roll.Entry due _ (rollOf ms after nextBatch)
        rw [rollOf_eq hannals]
        have hwho : (p.begin env).1.member = (rollOf ms env nextBatch).nextMember := rfl
        exact .spoil hwho hname hneeds hdue

/-! ## Batches -/

/-- Members that are unwound go one after another, the last one first. -/
theorem unwind_entries (hd : ∀ m ∈ done, m.stage = .loaded) :
    Roll.Entries due (rollOf (ms ++ done) env nextBatch)
      (rollOf ms (unwind env done.reverse) nextBatch) := by
  induction done using List.reverseRecOn generalizing env with
  | nil =>
      rw [List.append_nil]
      exact .refl
  | append_singleton done m ih =>
      let next := m.discardReported (env.report .warn .loader ("Unwinding module " ++ m.name))
      have hannals : next.annals = (env.turns ++ [.dropped m.actor], env.nextMember) :=
        Member.discardReported_annals
      have hfirst : Roll.Entry due (rollOf (ms ++ (done ++ [m])) env nextBatch)
          (rollOf (ms ++ done) next nextBatch) := by
        rw [rollOf_eq hannals]
        refine .unwind (s := rollOf (ms ++ (done ++ [m])) env nextBatch) (l := m.life) ?_
          (hd m (by simp))
        rw [rollOf, ← List.append_assoc, List.map_append, List.map_singleton]
      rw [List.reverse_append, List.reverse_singleton, List.singleton_append]
      exact .head hfirst (ih fun x hx => hd x (List.mem_append_left _ hx))

/-- Loading planned modules is a sequence of entries, whatever comes of it. -/
theorem loadAll_entries {res : Except LifecycleError (List Member)}
    (hf : Stepwise (fun before p =>
      p.Follows ((ms ++ done).map Member.name ++ before.map (·.name))) plan)
    (hdue : ∀ p ∈ plan, due p.name p.dependencies) (hd : ∀ m ∈ done, m.stage = .loaded)
    (hbatch : batch + 1 = nextBatch) (h : loadAll batch plan done env = (res, env')) :
    match res with
    | .ok members =>
      Roll.Entries due (rollOf (ms ++ done) env nextBatch) (rollOf (ms ++ members) env' nextBatch)
    | .error _ => Roll.Entries due (rollOf (ms ++ done) env nextBatch) (rollOf ms env' nextBatch) := by
  induction plan generalizing done env with
  | nil =>
      obtain ⟨rfl, rfl⟩ := Prod.mk.inj h
      exact .refl
  | cons p plan ih =>
      obtain ⟨hp, hrest⟩ := Stepwise.cons_iff.mp hf
      rw [List.map_nil, List.append_nil] at hp
      rw [loadAll] at h
      cases hl : p.load batch env with
      | mk r next =>
          have hentry := PlannedModule.load_entry hp (hdue p List.mem_cons_self) hbatch hl
          cases r with
          | error e =>
              simp only [hl] at h
              obtain ⟨rfl, rfl⟩ := Prod.mk.inj h
              let reported := next.report .error .loader
                ("❌ Module " ++ p.name ++ " failed to load: " ++ e.message)
              have hunwind : Roll.Entries due (rollOf (ms ++ done) reported nextBatch) _ :=
                unwind_entries hd
              exact .head hentry hunwind
          | ok m =>
              obtain ⟨hjoin, hname, hstage⟩ := hentry
              simp only [hl] at h
              rw [List.append_assoc] at hjoin
              have hf' : Stepwise (fun before q => q.Follows
                  ((ms ++ (done ++ [m])).map Member.name ++ before.map (·.name))) plan := by
                refine hrest.mono fun before q hq => ?_
                simpa [hname] using hq
              have hd' : ∀ x ∈ done ++ [m], x.stage = .loaded := by
                intro x hx
                rcases List.mem_append.mp hx with hx | hx
                · exact hd x hx
                · exact List.mem_singleton.mp hx ▸ hstage
              have hlast := ih hf' (fun q hq => hdue q (List.mem_cons_of_mem _ hq)) hd' h
              cases res with
              | error e => exact .head hjoin hlast
              | ok members => exact .head hjoin hlast

end Rolls

/-! ## Requests to load -/

namespace Rack

variable {r : Rack} {plan : List PlannedModule} {due : String → List String → Prop}

theorem loadBatch_entries
    (hf : Stepwise (fun before p => p.Follows (r.names ++ before.map (·.name))) plan)
    (hdue : ∀ p ∈ plan, due p.name p.dependencies) :
    Roll.Entries due r.roll (r.loadBatch plan).2.roll := by
  have hbegun : Roll.Entry due r.roll
      (rollOf (r.members ++ []) (r.beginBatch plan) (r.nextBatch + 1)) := by
    rw [List.append_nil]
    exact .batch
  have hf' : Stepwise (fun before p =>
      p.Follows ((r.members ++ []).map Member.name ++ before.map (·.name))) plan := by
    rw [List.append_nil]
    exact hf
  rw [loadBatch_eq]
  cases hl : loadAll r.nextBatch plan [] (r.beginBatch plan) with
  | mk res after =>
      have hentries := loadAll_entries hf' hdue (by simp) rfl hl
      cases res with
      | error e => exact .head hbegun hentries
      | ok members => exact .head hbegun hentries

theorem loadManifest_entries (m : Manifest) :
    Roll.Entries (m.Declares r.env.depot) r.roll (r.loadManifest m).2.roll := by
  rw [loadManifest_eq]
  cases claimAll r.env.claims (m.modules.map (·.name)) with
  | error name => exact .refl
  | ok claims =>
      simp only [loadPlanned]
      cases hplan : ((r.withClaims claims).plan m).1 with
      | error e => exact .refl
      | ok plan =>
          obtain ⟨hfollows, hlocated⟩ := Plan.make_follows hplan
          have hdue : ∀ p ∈ plan, m.Declares r.env.depot p.name p.dependencies := by
            intro p hp
            obtain ⟨d, hd, hfound⟩ := hlocated p hp
            exact hfound.declares hd
          have hentries := @loadBatch_entries ((r.withClaims claims).plan m).2 plan _ hfollows hdue
          exact hentries

theorem load_entries (source : Source) :
    match source.read with
    | .ok m => Roll.Entries (m.Declares r.env.depot) r.roll (r.load source).2.roll
    | .error _ => (r.load source).2 = r := by
  rw [load]
  cases source.read with
  | error e => rfl
  | ok m =>
      have hentries := @loadManifest_entries
        (r.mapEnv fun env => env.report .info .loader (Environment.readingText source m)) m
      exact hentries

theorem load_passages (source : Source) : r.roll.Passages (r.load source).2.roll := by
  have hentries := @load_entries r source
  cases hread : source.read with
  | error e =>
      simp only [hread] at hentries
      rw [hentries]
  | ok m =>
      simp only [hread] at hentries
      exact hentries.passages

end Rack

end Backplane
