import Backplane.Proofs.Lifecycle.Installing
import Backplane.Proofs.Lifecycle.Refusals
import Backplane.Proofs.Session.Endings
import Backplane.Proofs.Session.Load
/-!
# `Backplane.Proofs.Session.Unburdened`: racks on which nothing is referred to

As long as no module takes a reference, and the host takes none, no registration is ever in use: a
batch that there is room for is loaded, and once everybody has been detached nothing stands in the
way of unloading everything.

A rack is the `ModuleLoader`, with its `Broker`.
-/
namespace Backplane.Rack

open Environment (Gains)

variable {r r' : Rack} {source : Source} {m : Manifest} {plan : List PlannedModule}
  {offer : String → List Capability}

/-- Whether nobody holds a reference, and no member has a hook to come that takes one. -/
structure Unburdened (r : Rack) : Prop where
  slots : r.env.slots = []
  modest : ∀ m ∈ r.members, m.Modest

/-- What is reported makes no difference. -/
theorem Unburdened.reported (hu : r.Unburdened) (h : r.Reported r') : r'.Unburdened := by
  obtain ⟨more, rfl⟩ := h
  exact ⟨hu.slots, hu.modest⟩

/-! ## Loading -/

/-- A batch is loaded if there is room for what its modules publish. -/
theorem Unburdened.loadBatch (hu : r.Unburdened)
    (hplan : ∀ p ∈ plan, p.blueprint.Installs (offer p.name))
    (hroom : r.env.broker.HasRoom (offers offer plan)) :
    (∃ names, (r.loadBatch plan).1 = .ok names) ∧ (r.loadBatch plan).2.Unburdened := by
  have hbegun : Gains [] r.env (r.beginBatch plan) := Gains.refl.same rfl rfl
  obtain ⟨added, e', hload, hmodest, hgains⟩ :
      ∃ added e', loadAll r.nextBatch plan [] (r.beginBatch plan) = (.ok ([] ++ added), e') ∧
        (∀ m ∈ added, m.Modest) ∧ Gains (offers offer plan) (r.beginBatch plan) e' :=
    loadAll_gains hplan (hbegun.hasRoom hroom)
  rw [List.nil_append] at hload
  rw [loadBatch_eq, hload]
  refine ⟨⟨_, rfl⟩, ?_, ?_⟩
  · show e'.slots = []
    rw [hgains.slots, hbegun.slots, hu.slots]
  · intro x hx
    rcases List.mem_append.mp hx with hold | hnew
    · exact hu.modest x hold
    · exact hmodest x hnew

/-- A manifest that can be planned is loaded if nobody else is at work and there is room for what its
modules publish. -/
theorem Unburdened.load (hu : r.Unburdened) (hclaims : r.env.claims = []) (hread : source.read = .ok m)
    (hplanned : r.planOf source = .ok plan)
    (hplan : ∀ p ∈ plan, p.blueprint.Installs (offer p.name))
    (hroom : r.env.broker.HasRoom (offers offer plan)) :
    (∃ names, (r.load source).1 = .ok names) ∧ (r.load source).2.Unburdened := by
  let begun := r.mapEnv fun env => env.report .info .loader (Environment.readingText source m)
  have hclaim : claimAll begun.env.claims (m.modules.map (·.name)) =
      .ok (begun.env.claims ++ distinct (m.modules.map (·.name))) := by
    have hnone : (m.modules.map (·.name)).find? begun.env.claims.contains = none := by
      show (m.modules.map (·.name)).find? r.env.claims.contains = none
      rw [hclaims]
      simp
    rw [claimAll, hnone]
  let claimed := begun.withClaims (begun.env.claims ++ distinct (m.modules.map (·.name)))
  have hmake : (claimed.plan m).1 = .ok plan := by
    rw [planOf, hread] at hplanned
    exact hplanned
  have hready : (claimed.plan m).2.Unburdened := ⟨hu.slots, hu.modest⟩
  obtain ⟨hok, hloaded⟩ := hready.loadBatch hplan hroom
  have hload : r.load source = (((claimed.plan m).2.loadBatch plan).1,
      ((claimed.plan m).2.loadBatch plan).2.release (m.modules.map (·.name))) := by
    rw [Rack.load, hread]
    show begun.loadManifest m = _
    rw [loadManifest_eq, hclaim]
    show ((claimed.loadPlanned m).1, (claimed.loadPlanned m).2.release (m.modules.map (·.name))) = _
    rw [loadPlanned, hmake]
  rw [hload]
  exact ⟨hok, hloaded.slots, hloaded.modest⟩

/-! ## Attaching and detaching -/

theorem members_postLoad : r.postLoad.2.members =
    r.members.map fun m => if m.stage = .loaded then { m with stage := .postLoaded } else m :=
  postLoad_goesThrough.members

theorem members_preUnload : r.preUnload.2.members =
    r.members.map fun m => if m.stage = .postLoaded then { m with stage := .preUnloaded } else m := by
  have hback := congrArg List.reverse (@preUnload_goesThrough r).members
  rw [List.reverse_reverse, ← List.map_reverse, List.reverse_reverse] at hback
  exact hback

/-- A pass changes nothing of its members but the stage. -/
theorem modest_of_map {ms : List Member} {s s' : Stage} (h : ∀ m ∈ ms, m.Modest) :
    ∀ m ∈ ms.map fun m => if m.stage = s then { m with stage := s' } else m, m.Modest := by
  intro x hx
  obtain ⟨m, hm, rfl⟩ := List.mem_map.mp hx
  split
  · exact h m hm
  · exact h m hm

theorem names_of_map {ms : List Member} {s s' : Stage} :
    (ms.map fun m => if m.stage = s then { m with stage := s' } else m).map Member.name =
      ms.map Member.name := by
  rw [List.map_map]
  refine List.map_congr_left fun m _ => ?_
  show Member.name (if m.stage = s then _ else m) = m.name
  split <;> rfl

theorem names_postLoad : r.postLoad.2.names = r.names := by
  rw [names, members_postLoad, names_of_map]
  rfl

theorem names_preUnload : r.preUnload.2.names = r.names := by
  rw [names, members_preUnload, names_of_map]
  rfl

theorem Unburdened.postLoad (hu : r.Unburdened) : r.postLoad.2.Unburdened := by
  have hgains : Gains [] r.env (attachAll r.members r.env).2.2 := attachAll_gains hu.modest
  refine ⟨?_, ?_⟩
  · have hslots : r.postLoad.2.env.slots = (attachAll r.members r.env).2.2.slots := by
      simp only [Rack.postLoad, attachAll_goesThrough.count, reportPass]
      rfl
    rw [hslots, hgains.slots, hu.slots]
  · rw [members_postLoad]
    exact modest_of_map hu.modest

theorem Unburdened.preUnload (hu : r.Unburdened) : r.preUnload.2.Unburdened := by
  have hgains : Gains [] r.env (detachAll r.members.reverse r.env).2.2 :=
    detachAll_gains fun m hm => hu.modest m (List.mem_reverse.mp hm)
  refine ⟨?_, ?_⟩
  · have hslots : r.preUnload.2.env.slots = (detachAll r.members.reverse r.env).2.2.slots := by
      simp only [Rack.preUnload, detachAll_goesThrough.count, reportPass]
      rfl
    rw [hslots, hgains.slots, hu.slots]
  · rw [members_preUnload]
    exact modest_of_map hu.modest

theorem detached_preUnload : ∀ m ∈ r.preUnload.2.members, m.stage ≠ .postLoaded := by
  intro x hx
  rw [members_preUnload] at hx
  obtain ⟨m, -, rfl⟩ := List.mem_map.mp hx
  split
  · exact Stage.noConfusion
  · assumption

/-! ## Unloading -/

/-- Where nobody holds a reference no registration is in use. -/
theorem Unburdened.not_isBusy (hs : r.Sound) (hu : r.Unburdened) (n : Nat) : ¬ r.env.IsBusy n := by
  rintro ⟨t, refs, -, hcounted, hpositive⟩
  rw [hs.env.wellFormed.outstanding_eq] at hcounted
  obtain ⟨u, hu', hrefs⟩ := Option.map_eq_some_iff.mp hcounted
  have hpresent : (r.env.broker.usage? t).isSome := by
    rw [hu']
    rfl
  have hnone := hs.usage? hpresent
  rw [hu.slots, hu'] at hnone
  have hzero : u.outstanding = 0 := congrArg Usage.outstanding (Option.some.inj hnone)
  omega

/-- Everybody can be unloaded at once, when nobody is attached. -/
theorem Unburdened.unloadAll (hs : r.Sound) (hu : r.Unburdened)
    (hdetached : ∀ m ∈ r.members, m.stage ≠ .postLoaded) : r.UnloadsAll r.unloadAll := by
  refine hs.unloadAll_unopposed ?_
  intro e hrefused
  cases hrefused with
  | attached hlatest =>
      obtain ⟨older, newer, heq, hstage, -⟩ := hlatest
      refine hdetached _ ?_ hstage
      rw [heq]
      exact List.mem_append_right _ List.mem_cons_self
  | busy _ hlatest _ =>
      obtain ⟨-, -, -, hbusy, -⟩ := hlatest
      exact hu.not_isBusy hs _ hbusy

end Backplane.Rack
