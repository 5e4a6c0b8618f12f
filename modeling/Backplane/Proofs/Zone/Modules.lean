import Mathlib.Data.List.Nodup
import Backplane.Proofs.Bundle.Depot
import Backplane.Proofs.Plan.Verdict
import Backplane.Proofs.Session.Unburdened
import Backplane.Zone.Modules
/-!
# `Backplane.Proofs.Zone.Modules`: the host's own modules load

No module that comes with the host ever keeps a reference, and no two of different names publish the
same capability.  So where there are no others every valid manifest is loaded, and any other is
refused.

The modules are those of `builtin_unit` and of the unit `scoring`.
-/
namespace Backplane.Zone

variable {d : Declaration} {depot : Depot} {p : PlannedModule} {a : Option String} {b : Blueprint}
  {m : Manifest} {r r' : Rack} {source : Source}

/-- The exclusive capabilities that a module of the host publishes. -/
def provision (name : String) : List Capability :=
  if name = "prng" then [Contract.generator.capability]
  else if name = "obscenity" then [Contract.wordFilter.capability]
  else []

theorem mem_provision {name : String} {c : Capability} : c ∈ provision name ↔
    name = "prng" ∧ c = Contract.generator.capability ∨
      name = "obscenity" ∧ c = Contract.wordFilter.capability := by
  unfold provision
  split
  · next h => simp [h]
  split
  · next h => simp [h]
  · next h h' => simp [h, h']

/-- Modules of different names publish different capabilities. -/
theorem nodup_provision {names : List String} (h : names.Nodup) :
    (names.flatMap provision).Nodup := by
  have hone : ∀ name, (provision name).Nodup := by
    intro name
    unfold provision
    split
    · exact List.nodup_singleton _
    split
    · exact List.nodup_singleton _
    · exact .nil
  have hkinds : Contract.generator.capability ≠ Contract.wordFilter.capability := by decide
  have hapart : ∀ {x y : String}, x ≠ y → (provision x).Disjoint (provision y) := by
    intro x y hne c hx hy
    rcases mem_provision.mp hx with ⟨rfl, hc⟩ | ⟨rfl, hc⟩ <;>
      rcases mem_provision.mp hy with ⟨rfl, hc'⟩ | ⟨rfl, hc'⟩
    · exact hne rfl
    · exact hkinds (hc.symm.trans hc')
    · exact hkinds (hc'.symm.trans hc)
    · exact hne rfl
  exact List.nodup_flatMap.mpr ⟨fun name _ => hone name, h.imp hapart⟩

/-! ## No module of the host keeps a reference -/

theorem mem_modules : b ∈ modules ↔
    b = generatorModule ∨ b = wordFilterModule ∨ b = bountyModule ∨ b = flagModule ∨ b = prizeModule := by
  have hall : modules = [generatorModule, wordFilterModule, bountyModule, flagModule, prizeModule] := rfl
  rw [hall]
  simp

theorem installs_loader {name : String} {dependencies : List String} {load : Behaviour}
    {cs : List Capability} (h : load.Installs cs) :
    (loader name dependencies load).Installs cs := by
  refine ⟨rfl, _, rfl, h, ?_⟩
  intro hook hhook
  cases hook with
  | load => exact absurd rfl hhook
  | _ => exact .finish

theorem installs_publish (s : Service) : Behaviour.Installs [s.contract.capability]
    (.perform (.publishInterface s none) Behaviour.settle) :=
  .exclusive .finish

theorem installs_scorer {name : String} {dependencies : List String} {s : Scorer} {priority : Int} :
    (scorerModule name dependencies s priority).Installs [] :=
  installs_loader (.advisory .finish)

theorem installs_of_mem (hb : b ∈ modules) : b.Installs (provision b.name) := by
  rcases mem_modules.mp hb with rfl | rfl | rfl | rfl | rfl
  · have hcs : provision generatorModule.name = [Contract.generator.capability] := rfl
    rw [hcs]
    exact installs_loader (.entropy fun g => installs_publish (.generator g))
  · have hcs : provision wordFilterModule.name = [Contract.wordFilter.capability] := rfl
    rw [hcs]
    exact installs_loader (.report (installs_publish (.wordFilter (.ofWords defaultWords))))
  · exact installs_scorer
  · exact installs_scorer
  · exact installs_scorer

/-! ## What a manifest can lead to -/

/-- Whether a depot has nothing but what comes with the host: the built-in unit, and, whatever library
is opened, the scoring unit; and none has been opened. -/
structure Stocks (depot : Depot) : Prop where
  builtin : depot.builtin = builtinUnit
  opened : depot.opened = []
  library : ∀ path b, depot.load path = .ok b → b = scoringUnit

/-- What is opened on a shelf is one of the libraries there. -/
theorem mem_libraries_of_load {shelf : Shelf} {path : String} {found : Bundle}
    (h : shelf.load path = .ok found) : ∃ x ∈ shelf.libraries, x.2 = .ok found := by
  rw [Shelf.load] at h
  cases hlook : shelf.folder.look path with
  | error fault =>
      rw [hlook] at h
      cases h
  | ok place =>
      rw [hlook] at h
      simp only at h
      split at h
      · cases h
      cases place with
      | file name content =>
          simp only at h
          cases hget : Keyed.get? shelf.libraries name with
          | none =>
              rw [hget] at h
              cases h
          | some x =>
              rw [hget] at h
              exact ⟨(name, x), Keyed.mem_of_get? hget, h⟩
      | _ => cases h

theorem Stocks.origin {reference : String} {found : Bundle} (hs : Stocks depot)
    (h : depot.origin a = .ok (reference, found)) : found = builtinUnit ∨ found = scoringUnit := by
  rw [Depot.origin_eq] at h
  by_cases hr : Depot.label a = Depot.builtinName
  · rw [Depot.known?_builtin hr] at h
    have hthere : depot.builtin = found := (Prod.mk.inj (Except.ok.inj h)).2
    exact .inl (hthere.symm.trans hs.builtin)
  · rw [Depot.known?_of_ne hr, hs.opened] at h
    have hfresh : depot.fresh (Depot.label a) = .ok (reference, found) := h
    rw [Depot.fresh] at hfresh
    cases hload : depot.load (Reference.locate depot.folder (Depot.label a)) with
    | error fault =>
        rw [hload] at hfresh
        cases hfresh
    | ok bundle =>
        rw [hload] at hfresh
        cases hfresh
        exact .inr (hs.library _ _ hload)

/-- Whatever is found for a declaration comes with the host. -/
theorem Stocks.installs (hs : Stocks depot) (h : Located depot d p) :
    p.blueprint.Installs (provision p.name) := by
  have hmem : p.blueprint ∈ p.unit.bundle.blueprints := List.mem_of_find?_eq_some h.blueprint
  have hname : p.blueprint.name = d.name := by simpa using List.find?_some h.blueprint
  have hmodule : p.blueprint ∈ modules := by
    rcases hs.origin h.unit with hunit | hunit
    · exact List.mem_append_left _ (hunit ▸ hmem)
    · exact List.mem_append_right _ (hunit ▸ hmem)
  rw [h.name, ← hname]
  exact installs_of_mem hmodule

/-! ## Loading a manifest -/

/-- Whether the members of a rack are the modules of a manifest, all at one stage, and nobody refers
to anything. -/
structure Carries (m : Manifest) (s : Stage) (r : Rack) : Prop where
  sound : r.Sound
  unburdened : r.Unburdened
  names : r.names.Perm m.names
  stages : ∀ x ∈ r.members, x.stage = s

/-- Whether nothing has been done on a rack yet, apart from reports. -/
def Bare (depot : Depot) (r : Rack) : Prop := ∃ entropy log, r = { env := { depot, entropy, log } }

namespace Bare

theorem reported (hb : Bare depot r) (h : r.Reported r') : Bare depot r' := by
  obtain ⟨entropy, log, rfl⟩ := hb
  obtain ⟨more, rfl⟩ := h
  exact ⟨entropy, log ++ more, rfl⟩

theorem sound (hb : Bare depot r) : r.Sound := by
  obtain ⟨entropy, log, rfl⟩ := hb
  exact (Rack.sound_start depot).same rfl rfl

theorem members (hb : Bare depot r) : r.members = [] := by
  obtain ⟨entropy, log, rfl⟩ := hb
  rfl

theorem claims (hb : Bare depot r) : r.env.claims = [] := by
  obtain ⟨entropy, log, rfl⟩ := hb
  rfl

theorem unburdened (hb : Bare depot r) : r.Unburdened := by
  refine ⟨?_, by simp [hb.members]⟩
  obtain ⟨entropy, log, rfl⟩ := hb
  rfl

theorem hasRoom (hb : Bare depot r) {cs : List Capability} (h : cs.Nodup) : r.env.broker.HasRoom cs := by
  obtain ⟨entropy, log, rfl⟩ := hb
  exact ⟨fun c _ => rfl, h⟩

/-- What is planned is planned for an empty rack. -/
theorem planOf (hb : Bare depot r) :
    r.planOf source = source.read.bind fun m => (Plan.make depot [] m).result := by
  obtain ⟨entropy, log, rfl⟩ := hb
  rfl

/-- Without a valid manifest nothing is loaded. -/
theorem load_invalid (hb : Bare depot r) (h : ∀ m, source.read = .ok m → ¬ m.Valid depot []) :
    ∃ e, (r.load source).1 = .error e := by
  have houtcome := hb.sound.load source
  have hunplanned : ∀ plan, r.planOf source ≠ .ok plan := by
    intro plan hplanned
    rw [hb.planOf] at hplanned
    cases hread : source.read with
    | error e =>
        rw [hread] at hplanned
        cases hplanned
    | ok m =>
        rw [hread] at hplanned
        have hmake : (Plan.make depot [] m).result = .ok plan := hplanned
        rcases @Plan.make_cases depot [] m with ⟨_, -, hvalid⟩ | ⟨e, herror, -⟩
        · exact h m hread hvalid
        · rw [hmake] at herror
          cases herror
  cases hres : (r.load source).1 with
  | error e => exact ⟨e, rfl⟩
  | ok names =>
      rw [hres] at houtcome
      cases houtcome with
      | loaded hplan _ => exact absurd hplan (hunplanned _)

/-- Where there is nothing but what comes with the host, a valid manifest is loaded. -/
theorem load_valid (hb : Bare depot r) (hs : Stocks depot) (hread : source.read = .ok m)
    (hvalid : m.Valid depot []) :
    (r.load source).1 = .ok (r.load source).2.names ∧ Carries m .loaded (r.load source).2 := by
  obtain ⟨plan, hmake⟩ : ∃ plan, (Plan.make depot [] m).result = .ok plan := by
    rcases @Plan.make_cases depot [] m with ⟨plan, hplan, -⟩ | ⟨e, -, hfaulty⟩
    · exact ⟨plan, hplan⟩
    · exact absurd hvalid hfaulty.not_valid
  have hinstalls : ∀ p ∈ plan, p.blueprint.Installs (provision p.name) := by
    intro p hp
    obtain ⟨d, -, hlocated⟩ := (Plan.make_follows hmake).2 p hp
    exact hs.installs hlocated
  have hdeclared : (plan.map (·.name)).Perm m.names := Plan.make_names hmake
  have hroom : r.env.broker.HasRoom (offers provision plan) := by
    have hdistinct : (plan.map (·.name)).Nodup := hdeclared.nodup_iff.mpr hvalid.once
    refine hb.hasRoom ?_
    rw [offers, ← List.flatMap_map]
    exact nodup_provision hdistinct
  have hplanned : r.planOf source = .ok plan := by
    rw [hb.planOf, hread]
    exact hmake
  obtain ⟨⟨names, hok⟩, hafter⟩ := hb.unburdened.load hb.claims hread hplanned hinstalls hroom
  have houtcome := hb.sound.load source
  rw [hok, hplanned] at houtcome
  have hsound := houtcome.sound hb.sound
  cases houtcome with
  | @loaded plan' added _ hsame hadds =>
      obtain rfl := Except.ok.inj hsame
      have hmembers : (r.load source).2.members = added := by
        rw [hadds.members, hb.members, List.nil_append]
      have hnames : (r.load source).2.names = plan.map (·.name) := by
        rw [Rack.names, hmembers, PlannedModule.Becomes.map_name hadds.becomes]
      refine ⟨by rw [hok, hnames], hsound, hafter, hnames ▸ hdeclared, ?_⟩
      rw [hmembers]
      exact PlannedModule.Becomes.all_loaded hadds.becomes

end Bare

/-! ## Attaching, and taking everything down -/

namespace Carries

variable {s : Stage}

theorem reported (h : Carries m s r) (hr : r.Reported r') : Carries m s r' := by
  obtain ⟨more, rfl⟩ := hr
  exact ⟨h.sound.same rfl rfl, h.unburdened.reported ⟨more, rfl⟩, h.names, h.stages⟩

/-- All members are attached. -/
theorem postLoad (h : Carries m .loaded r) :
    (∃ n, r.postLoad.1 = .ok n) ∧ Carries m .postLoaded r.postLoad.2 := by
  obtain ⟨n, hok, hsound, -⟩ := h.sound.postLoad
  refine ⟨⟨n, hok⟩, hsound, h.unburdened.postLoad, ?_, ?_⟩
  · rw [Rack.names_postLoad]
    exact h.names
  · intro x hx
    rw [Rack.members_postLoad] at hx
    obtain ⟨y, hy, rfl⟩ := List.mem_map.mp hx
    rw [if_pos (h.stages y hy)]

/-- All members that are attached are detached, and then unloaded at the first try, the last one
first. -/
theorem takeDown (h : Carries m .postLoaded r) :
    r.preUnload.1 = .ok r.names.length ∧ r.preUnload.2.unloadAll.1 = .ok r.names.reverse ∧
      r.preUnload.2.unloadAll.2.members = [] := by
  have hcount : r.members.reverse.countP (·.stage = .postLoaded) = r.names.length := by
    rw [List.countP_reverse, Rack.names, List.length_map]
    refine List.countP_eq_length.mpr fun x hx => ?_
    exact decide_eq_true (h.stages x hx)
  obtain ⟨-, -, hsound, -⟩ := h.sound.preUnload
  have hgone := h.unburdened.preUnload.unloadAll hsound Rack.detached_preUnload
  refine ⟨?_, ?_, hgone.members⟩
  · rw [← hcount]
    exact Rack.preUnload_goesThrough.count
  · rw [hgone.names, Rack.names_preUnload]

end Carries

end Backplane.Zone
