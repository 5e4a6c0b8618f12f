import Backplane.Proofs.Lifecycle.Passages
/-!
# `Backplane.Proofs.Lifecycle.Tenure`: nobody's dossier is let go before he is dropped

The dossier of an instance is attached as long as the instance is there: whatever hooks do, only the
lifecycle detaches a dossier, and it does so when the instance has been dropped.

A dossier is a `ModuleContext`, held by its `ModuleRecord`.
-/
namespace Backplane

variable {e e' : Environment} {m : Member} {ms members done : List Member} {home : SlotHome}

/-- Whose dossier it is, and whether it is attached. -/
def Dossier.tenure (d : Dossier) : Nat × Bool := (d.member, d.attached)

/-- Whether everybody whose dossier is detached has been dropped. -/
def Environment.Tenured (e : Environment) : Prop :=
  ∀ d ∈ e.dossiers, d.attached = false → ∃ who : Actor, who.member = d.member ∧ .dropped who ∈ e.turns

theorem Move.tenures {s s' : Scene} (h : Move home s s') :
    s'.dossiers.map Dossier.tenure = s.dossiers.map Dossier.tenure := by
  cases h with
  | record => exact map_changeIn fun _ => rfl
  | forget => exact map_changeIn fun _ => rfl
  | _ => rfl

theorem Moves.tenures {s s' : Scene} (h : Moves home s s') :
    s'.dossiers.map Dossier.tenure = s.dossiers.map Dossier.tenure := by
  induction h with
  | refl => rfl
  | tail _ h ih => exact h.tenures.trans ih

namespace Environment.Tenured

theorem mono (h : e.Tenured) (hd : e'.dossiers.map Dossier.tenure = e.dossiers.map Dossier.tenure)
    (ht : e.turns <+: e'.turns) : e'.Tenured := by
  intro d' hd' hout
  have hin : d'.tenure ∈ e.dossiers.map Dossier.tenure := hd ▸ List.mem_map_of_mem hd'
  obtain ⟨d, hmem, heq⟩ := List.mem_map.mp hin
  obtain ⟨hn, ha⟩ := Prod.mk.inj heq
  obtain ⟨who, hwho, hdropped⟩ := h d hmem (ha.trans hout)
  exact ⟨who, hwho.trans hn, ht.subset hdropped⟩

/-- Whatever somebody does, he has nobody's dossier let go. -/
theorem moves (h : e.Tenured) (hm : Moves home (e.scene []) (e'.scene [])) {news : List Turn}
    (ht : e'.turns = e.turns ++ news) : e'.Tenured :=
  h.mono hm.tenures (ht ▸ List.prefix_append _ _)

theorem moves_annals (h : e.Tenured) (hm : Moves home (e.scene []) (e'.scene []))
    (ha : e'.annals = e.annals) : e'.Tenured :=
  h.moves hm ((Prod.mk.inj ha).1.trans (List.append_nil _).symm)

theorem report {level : Level} {origin : Origin} {text : String} (h : e.Tenured) :
    (e.report level origin text).Tenured := h

/-! ## One member -/

theorem advance {next : Stage} {x : Member × Environment} (h : e.Tenured)
    (hadv : m.advance next e = .ok x) : x.2.Tenured := by
  rw [Member.advance] at hadv
  split at hadv
  · rw [← Except.ok.inj hadv]
    exact h
  · simp at hadv

theorem runReported {hook : Hook} (h : e.Tenured) : (m.runReported hook e).Tenured := by
  obtain ⟨f, hannals⟩ := @Member.runReported_annals e m hook
  exact h.moves Member.runReported_moves (Prod.mk.inj hannals).1

theorem runHook {who : Actor} {hooks : Hooks} {hook : Hook} (h : e.Tenured) :
    (e.runHook who hooks hook).2.Tenured :=
  h.moves runHook_moves (Prod.mk.inj runHook_annals).1

theorem cleared {n : Nat} {ts : List Ticket} (h : e.Tenured)
    (hs : e'.scene [] = (e.scene []).cleared n ts) (ha : e'.annals = e.annals) : e'.Tenured := by
  refine h.mono ?_ ⟨[], (List.append_nil _).trans (Prod.mk.inj ha).1.symm⟩
  rw [show e'.dossiers = _ from congrArg Scene.dossiers hs]
  exact map_changeIn fun _ => rfl

theorem dropInstance (h : e.Tenured) :
    (m.dropInstance e).Tenured ∧ .dropped m.actor ∈ (m.dropInstance e).turns := by
  have hturns := (Prod.mk.inj (@Member.dropInstance_annals e m)).1
  have hmoves : Moves .host (e.scene []) ((m.dropInstance e).scene []) := Member.dropInstance_moves
  refine ⟨h.moves hmoves hturns, ?_⟩
  rw [hturns]
  exact List.mem_append_right _ (List.mem_singleton_self _)

theorem detach (h : e.Tenured) (hdropped : .dropped m.actor ∈ e.turns) : (m.detach e).Tenured := by
  intro d' hd' hout
  obtain ⟨d, hd, rfl⟩ := List.mem_map.mp hd'
  by_cases hn : d.member = m.actor.member
  · rw [if_pos hn]
    exact ⟨m.actor, hn.symm, hdropped⟩
  · rw [if_neg hn] at hout ⊢
    exact h d hd hout

theorem leave (h : e.Tenured) : (m.leave e).Tenured :=
  h.dropInstance.1.detach h.dropInstance.2

theorem discardReported (h : e.Tenured) : (m.discardReported e).Tenured := by
  obtain ⟨log, log', heq⟩ := @Member.discardReported_eq m e
  have hstart : Tenured { e with log } := h
  obtain ⟨hdrop, hdropped⟩ := @dropInstance { e with log } m hstart
  have hannals : ((m.dropInstance { e with log }).forceRemoveRegistrations m.actor).annals =
      (m.dropInstance { e with log }).annals := inert_annals.forceRemoveRegistrations
  have hremoved : ((m.dropInstance { e with log }).forceRemoveRegistrations m.actor).Tenured :=
    hdrop.cleared forceRemoveRegistrations_scene hannals
  rw [heq]
  refine detach hremoved ?_
  show _ ∈ ((m.dropInstance { e with log }).forceRemoveRegistrations m.actor).turns
  rw [(Prod.mk.inj hannals).1]
  exact hdropped

theorem preUnload (h : e.Tenured) : (m.preUnload e).2.2.Tenured := by
  rw [Member.preUnload]
  cases hfirst : m.advance .preUnloading e with
  | error err => exact h
  | ok x =>
      have hrun : (x.1.runReported .preUnload x.2).Tenured := (h.advance hfirst).runReported
      simp only
      cases hlast : x.1.advance .preUnloaded (x.1.runReported .preUnload x.2) with
      | error err => exact hrun
      | ok y => exact hrun.advance hlast

theorem teardown (h : e.Tenured) : (m.teardown e).2.Tenured := by
  have hremoved : (e.removeRegistrations m.actor).Tenured :=
    h.cleared removeRegistrations_scene inert_annals.removeRegistrations
  have hrun := @runReported _ m .unload hremoved
  rw [Member.teardown]
  cases hadv : m.advance .unloaded (m.runReported .unload (e.removeRegistrations m.actor)) with
  | error err => exact hrun.leave
  | ok x => exact (hrun.advance hadv).report.leave

/-! ## Loading -/

theorem loadMember (h : e.Tenured) : (m.load e).2.Tenured := by
  rw [Member.load]
  cases hfirst : m.advance .loading e with
  | error err => exact h.leave
  | ok x =>
      have hrun : (x.2.runHook x.1.actor x.1.body.hooks .load).2.Tenured :=
        (h.advance hfirst).runHook
      simp only
      cases (x.2.runHook x.1.actor x.1.body.hooks .load).1 with
      | some err => exact hrun.discardReported
      | none =>
          simp only
          cases hlast : x.1.advance .loaded (x.2.runHook x.1.actor x.1.body.hooks .load).2 with
          | error err => exact hrun.leave
          | ok y => exact hrun.advance hlast

theorem openDossier {who : Actor} {quiet : Bool} (h : e.Tenured) :
    (e.openDossier who quiet).Tenured := by
  intro d hd hout
  rcases List.mem_append.mp hd with hd | hd
  · exact h d hd hout
  · rw [List.mem_singleton.mp hd] at hout
    simp at hout

theorem load {p : PlannedModule} {batch : Nat} (h : e.Tenured) : (p.load batch e).2.Tenured := by
  let built := (p.begin e).2.carryOutAll (p.begin e).1.member p.blueprint.preparations
  have hbegun : (p.begin e).2.Tenured := h
  have hbuilt : built.Tenured := hbegun.moves_annals carryOutAll_moves carryOutAll_annals
  rw [PlannedModule.load]
  cases p.blueprint.construction.result with
  | error err =>
      have hmoves : Moves .host (built.scene []) ((built.emptySlots (p.begin e).1.member).scene []) :=
        emptySlots_moves
      exact hbuilt.moves_annals hmoves emptySlots_annals
  | ok body =>
      have hthere : ((p.checkName body built).mark (.built (p.begin e).1 p.dependencies)).Tenured := by
        refine mono hbuilt ?_ ?_
        all_goals
          rw [PlannedModule.checkName]
          split
        · rfl
        · rfl
        all_goals exact List.prefix_append _ _
      exact hthere.openDossier.loadMember

theorem unwind (h : e.Tenured) : (unwind e members).Tenured := by
  induction members generalizing e with
  | nil => exact h
  | cons m members ih => exact ih h.report.discardReported

theorem loadAll {batch : Nat} {plan : List PlannedModule} (h : e.Tenured) :
    (loadAll batch plan done e).2.Tenured := by
  induction plan generalizing done e with
  | nil => exact h
  | cons p plan ih =>
      have hone : (p.load batch e).2.Tenured := h.load
      rw [Backplane.loadAll]
      cases (p.load batch e).1 with
      | ok m => exact ih hone
      | error err =>
          exact hone.report.unwind

/-! ## Passes and unloading -/

theorem attachAll (h : e.Tenured) : (attachAll ms e).2.2.Tenured := by
  induction ms generalizing e with
  | nil => exact h
  | cons m ms ih =>
      rw [Backplane.attachAll]
      split
      · have hrun : (m.runReported .postLoad e).Tenured := h.runReported
        simp only
        cases hadv : m.advance .postLoaded (m.runReported .postLoad e) with
        | error err => exact hrun
        | ok x => exact ih (hrun.advance hadv)
      · exact ih h

theorem detachAll (h : e.Tenured) : (detachAll ms e).2.2.Tenured := by
  induction ms generalizing e with
  | nil => exact h
  | cons m ms ih =>
      rw [Backplane.detachAll]
      split
      · have hpre : (m.preUnload e).2.2.Tenured := h.preUnload
        simp only
        cases (m.preUnload e).1 with
        | error err => exact hpre
        | ok _ => exact ih hpre
      · exact ih h

theorem tearDownAll (h : e.Tenured) : (tearDownAll ms e).2.2.Tenured := by
  induction ms generalizing e with
  | nil => exact h
  | cons m ms ih =>
      rw [Backplane.tearDownAll]
      have hone : (m.teardown e).2.Tenured := h.teardown
      simp only
      cases (m.teardown e).1 with
      | error err => exact hone
      | ok _ => exact ih hone

theorem retireAll {module : String} {past ts : List Ticket} (h : e.Tenured) :
    (retireAll module past ts e).2.Tenured := by
  induction ts generalizing past e with
  | nil => exact h
  | cons t ts ih =>
      rw [Environment.retireAll]
      split
      · exact ih h
      · exact h
      · exact ih h

theorem retireMembers (h : e.Tenured) : (retireMembers done ms e).2.Tenured := by
  induction ms generalizing done e with
  | nil => exact h
  | cons m ms ih =>
      have hone : (e.retireRegistrations m.actor).2.Tenured := h.retireAll
      rw [Backplane.retireMembers]
      cases (e.retireRegistrations m.actor).1 with
      | none => exact ih hone
      | some x =>
          show (done.foldl _ (e.retireRegistrations m.actor).2).Tenured
          revert hone
          generalize (e.retireRegistrations m.actor).2 = start
          intro hone
          induction done generalizing start with
          | nil => exact hone
          | cons x done ihd => exact ihd _ hone

end Environment.Tenured

/-! ## Requests -/

namespace Rack

variable {r : Rack}

theorem loadBatch_tenured {plan : List PlannedModule} (h : r.env.Tenured) :
    (r.loadBatch plan).2.env.Tenured := by
  have hloaded : (loadAll r.nextBatch plan [] (r.beginBatch plan)).2.Tenured :=
    Environment.Tenured.loadAll (e := r.beginBatch plan) h
  rw [loadBatch_eq]
  revert hloaded
  cases loadAll r.nextBatch plan [] (r.beginBatch plan) with
  | mk res after => cases res <;> exact id

theorem loadManifest_tenured {m : Manifest} (h : r.env.Tenured) :
    (r.loadManifest m).2.env.Tenured := by
  rw [loadManifest_eq]
  cases claimAll r.env.claims (m.modules.map (·.name)) with
  | error name => exact h
  | ok claims =>
      simp only [loadPlanned]
      cases ((r.withClaims claims).plan m).1 with
      | error err => exact h
      | ok plan => exact loadBatch_tenured (r := ((r.withClaims claims).plan m).2) h

theorem load_tenured {source : Source} (h : r.env.Tenured) : (r.load source).2.env.Tenured := by
  rw [load]
  cases source.read with
  | error err => exact h
  | ok m => exact loadManifest_tenured h

theorem postLoad_tenured (h : r.env.Tenured) : r.postLoad.2.env.Tenured := by
  have hdone : (attachAll r.members r.env).2.2.Tenured := h.attachAll
  rw [postLoad]
  simp only [reportPass]
  split <;> exact hdone

theorem preUnload_tenured (h : r.env.Tenured) : r.preUnload.2.env.Tenured := by
  have hdone : (detachAll r.members.reverse r.env).2.2.Tenured := h.detachAll
  rw [preUnload]
  simp only [reportPass]
  split <;> exact hdone

theorem unloadAll_tenured (h : r.env.Tenured) : r.unloadAll.2.env.Tenured := by
  have hretired : (retireMembers [] r.members.reverse r.announced).2.Tenured :=
    Environment.Tenured.retireMembers (e := r.announced) h
  rw [unloadAll]
  cases r.members.reverse.find? fun m => m.stage = .postLoaded with
  | some m => exact h
  | none =>
      show (retireAndTearDown { r with env := r.announced }).2.env.Tenured
      rw [retireAndTearDown]
      cases (retireMembers [] r.members.reverse r.announced).1 with
      | some x => exact hretired
      | none =>
          have hdown := @Environment.Tenured.tearDownAll _ r.members.reverse hretired
          simp only [tearDown]
          cases (tearDownAll r.members.reverse
            (retireMembers [] r.members.reverse r.announced).2).1 <;> exact hdown

theorem takeOut_tenured {m : Member} (h : r.env.Tenured) : (r.takeOut m).2.env.Tenured := by
  have hready : (m.makeReady r.env).2.2.Tenured := by
    rw [Member.makeReady]
    split
    · exact h.preUnload
    · exact h
  have heq : (if m.stage = .postLoaded then m.preUnload r.env else (.ok (), m, r.env)) =
      m.makeReady r.env := rfl
  simp only [takeOut, heq]
  cases (m.makeReady r.env).1 with
  | error err => exact hready
  | ok _ => exact hready.teardown

theorem unloadNamed_tenured {name : String} (h : r.env.Tenured) :
    (r.unloadNamed name).2.env.Tenured := by
  rw [unloadNamed]
  cases r.find? name with
  | none => exact h
  | some m =>
      simp only
      cases r.dependentsOf name with
      | cons d ds => exact h
      | nil =>
          have hretired : (r.env.retireRegistrations m.actor).2.Tenured := h.retireAll
          show (r.unloadMember m).2.env.Tenured
          rw [unloadMember]
          cases (r.env.retireRegistrations m.actor).1 with
          | some x => exact hretired
          | none => exact takeOut_tenured hretired

theorem unload_tenured {name : String} (h : r.env.Tenured) : (r.unload name).2.env.Tenured := by
  rw [unload_eq]
  cases claimAll r.env.claims [name] with
  | error other => exact h
  | ok claims => exact unloadNamed_tenured (r := r.withClaims claims) h

end Rack

end Backplane
