import Backplane.Proofs.Lifecycle.Lodging
import Backplane.Proofs.Session.Dependencies
import Backplane.Proofs.Session.Unload
/-!
# `Backplane.Proofs.Session.RoundTrip`: loading and unloading again

A module that only publishes when it is loaded, and does nothing else in any of its hooks, can be
unloaded as soon as it has been loaded, and also after it has been attached.  The members and both
registries are then what they were before it was loaded, and so is the result of every lookup; only
numbers have been given out.

The requests are `add_module` and `unload_module` of the `ModuleLoader`.
-/
namespace Backplane

variable {r r₁ : Rack} {name : String} {unit : Option String} {b : Blueprint} {m : Member}
  {ts : List Ticket} {ps : List Publication}

/-- Whether a module only publishes when it is loaded, and does nothing at any other time. -/
structure Blueprint.Publishes (b : Blueprint) (ps : List Publication) : Prop where
  prepared : b.preparations = []
  built : ∃ body, b.construction = .built body ∧ body.hooks.load.Publishes ps ∧
    ∀ hook, hook ≠ .load → (body.hooks.of hook).Publishes []

theorem Member.makeReady_lodges {e₀ e : Environment} (h : e₀.Lodges ts e)
    (hm : m.actor.member = e₀.nextMember) (hstage : m.stage = .loaded ∨ m.stage = .postLoaded)
    (hquiet : ∀ hook, hook ≠ .load → (m.body.hooks.of hook).Publishes []) :
    ∃ m' e', m.makeReady e = (.ok (), m', e') ∧ m'.actor = m.actor ∧ m'.body = m.body ∧
      m'.stage.mayBecome .unloaded = true ∧ e₀.Lodges ts e' := by
  rcases hstage with hl | hl
  · have hmay : m.stage.mayBecome .unloaded = true := by
      rw [hl]
      rfl
    exact ⟨m, e, by simp [Member.makeReady, hl], rfl, rfl, hmay, h⟩
  · obtain ⟨e', hpre, hready⟩ := Member.preUnload_lodges h hm hl (hquiet .preUnload (by simp))
    refine ⟨{ m with stage := .preUnloaded }, e', ?_, rfl, rfl, rfl, hready⟩
    rw [Member.makeReady, if_pos hl, hpre]

namespace Rack

/-- Whether a module is there to be loaded: it is not loaded yet, its unit is available, and all that
it depends on is loaded. -/
structure Offers (r : Rack) (name : String) (unit : Option String) (b : Blueprint) : Prop where
  new : name ∉ r.names
  found : ∃ u, (r.env.depot.resolve unit).1 = .ok u ∧ u.blueprint name = .ok b
  needs : ∀ d ∈ b.dependencies, d ∈ r.names

/-! ## Loading -/

/-- What is planned for a module that is there to be loaded. -/
theorem Offers.plan (h : r.Offers name unit b) (hname : isBlank name = false)
    (hunit : unit.any isBlank = false) :
    ∃ u depot log, r.plan ⟨[{ name, unit }]⟩ =
      (.ok [⟨name, u, b, Backplane.distinct b.dependencies⟩],
        r.mapEnv fun env => { env with depot, log }) := by
  obtain ⟨u, hresolved, hb⟩ := h.found
  let p : PlannedModule := ⟨name, u, b, Backplane.distinct b.dependencies⟩
  have hneeded : ∀ d ∈ p.dependencies, d ∈ r.names := fun d hd => h.needs d (mem_distinct.mp hd)
  have hfault : Plan.fault? r.names [] [{ name, unit }] = none := by
    simp [Plan.fault?, Declaration.fault?, hname, hunit, h.new]
  have hlocated : (Plan.locateAll r.env.depot [{ name, unit }]).result = .ok [p] := by
    simp [Plan.locateAll, Plan.locate, hresolved, hb, Except.bind, Except.map, p]
  have hneeds : Plan.needs [name] p = [] := by
    refine List.filterMap_eq_nil_iff.mpr fun d hd => ?_
    have hne : d ≠ name := fun heq => h.new (heq ▸ hneeded d hd)
    simp [List.idxOf?, Ne.symm hne]
  have hmissing : Plan.missing? [name] r.names [p] = none := by
    have hnone : p.dependencies.find? (fun d => !List.contains [name] d && !r.names.contains d) = none :=
      List.find?_eq_none.mpr fun d hd => by simp [hneeded d hd]
    rw [Plan.missing?, List.findSome?_singleton, hnone]
    rfl
  have harranged : Plan.arrange r.names [p] = .ok [p] := by
    have hnames : [p].map (·.name) = [name] := rfl
    have horder : Order.resolve [[]] = .ok [0] := by decide
    simp only [Plan.arrange, hnames, hmissing, List.map_cons, List.map_nil, hneeds, horder]
    rfl
  have hmade : (Plan.make r.env.depot r.names ⟨[{ name, unit }]⟩).result = .ok [p] := by
    simp only [Plan.make, hfault, hlocated, Except.bind, harranged]
  let outcome := Plan.make r.env.depot r.names ⟨[{ name, unit }]⟩
  refine ⟨u, outcome.depot, r.env.log ++ outcome.events, ?_⟩
  rw [Rack.plan, hmade]
  rfl

/-- What a rack has become when one module that publishes has been loaded, and may have been
attached since. -/
structure Lodges (r : Rack) (ts : List Ticket) (m : Member) (r₁ : Rack) : Prop where
  env : r.env.Lodges ts r₁.env
  members : r₁.members = r.members ++ [m]
  actor : m.actor.member = r.env.nextMember
  new : m.name ∉ r.names
  needs : ∀ d ∈ m.dependencies, d ∈ r.names
  quiet : ∀ hook, hook ≠ .load → (m.body.hooks.of hook).Publishes []
  nextBatch : r₁.nextBatch = r.nextBatch + 1

/-- A module that is there to be loaded is loaded, if there is room for what it publishes. -/
theorem Offers.add (h : r.Offers name unit b) (hname : isBlank name = false)
    (hunit : unit.any isBlank = false) (hb : b.Publishes ps) (ha : r.env.broker.Admits ps)
    (hs : r.Sound) (hclaims : r.env.claims = []) :
    ∃ ts m r₁, r.add name unit = (.ok (), r₁) ∧
      ts.map Ticket.isExclusive = ps.map Publication.isExclusive ∧ r.Lodges ts m r₁ ∧
      m.name = name ∧ m.stage = .loaded := by
  obtain ⟨body, hbuilt, hload, hquiet⟩ := hb.built
  obtain ⟨u, depot, log, hplan⟩ :=
    Offers.plan (r := r.withClaims [name]) ⟨h.new, h.found, h.needs⟩ hname hunit
  let p : PlannedModule := ⟨name, u, b, Backplane.distinct b.dependencies⟩
  let planned := (r.withClaims [name]).mapEnv fun env => { env with depot, log }
  let begun := planned.beginBatch [p]
  have hwf : begun.broker.WellFormed := hs.env.wellFormed
  have hfresh : begun.nextMember ∉ begun.dossiers.map (·.member) := fun hmem => by
    obtain ⟨d, hd, hdn⟩ := List.mem_map.mp hmem
    exact Nat.lt_irrefl _ (hdn ▸ hs.env.chronicled.numbered d hd)
  obtain ⟨ts, e', hloaded, hts, hlodges⟩ := PlannedModule.load_lodges (p := p) r.nextBatch
    hwf hfresh hb.prepared hbuilt hload ha
  let m : Member :=
    { actor := ⟨r.env.nextMember, name, b.watched⟩, body, unit := u.reference, stage := .loaded,
      batch := r.nextBatch, dependencies := p.dependencies }
  have hall : loadAll r.nextBatch [p] [] begun = (.ok [m], e') := by
    simp only [loadAll, hloaded]
    rfl
  have hbatch : ∃ log, planned.loadBatch [p] =
      (.ok [name], ⟨{ e' with log }, r.members ++ [m], r.nextBatch + 1⟩) := by
    rw [loadBatch_eq, show loadAll planned.nextBatch [p] [] (planned.beginBatch [p]) = _ from hall]
    exact ⟨_, rfl⟩
  obtain ⟨log', hbatch⟩ := hbatch
  have hclaim : claimAll r.env.claims [name] = .ok [name] := by
    rw [hclaims]
    exact claimAll_singleton List.not_mem_nil
  let r₁ : Rack := Rack.release ⟨{ e' with log := log' }, r.members ++ [m], r.nextBatch + 1⟩ [name]
  have hmanifest : r.loadManifest ⟨[{ name, unit }]⟩ = (.ok [name], r₁) := by
    have hplanned : (r.withClaims [name]).loadPlanned ⟨[{ name, unit }]⟩ = planned.loadBatch [p] := by
      rw [loadPlanned, hplan]
    rw [loadManifest_eq]
    simp only [List.map_cons, List.map_nil, hclaim, hplanned, hbatch, r₁]
  refine ⟨ts, m, r₁, ?_, hts, ?_, rfl, rfl⟩
  · rw [Rack.add, hmanifest]
    rfl
  · exact ⟨{ hlodges with }, rfl, rfl, h.new, fun d hd => h.needs d (mem_distinct.mp hd), hquiet, rfl⟩

/-! ## Attaching -/

theorem attachAll_append {ms : List Member} {e : Environment} (h : ∀ x ∈ ms, x.stage ≠ .loaded) :
    attachAll (ms ++ [m]) e =
      ((attachAll [m] e).1, ms ++ (attachAll [m] e).2.1, (attachAll [m] e).2.2) := by
  induction ms with
  | nil => rfl
  | cons x ms ih =>
      obtain ⟨hx, hms⟩ := List.forall_mem_cons.mp h
      rw [List.cons_append, attachAll, if_neg hx, ih hms]
      rfl

/-- If no other module is waiting to be attached, this one is attached alone. -/
theorem Lodges.postLoad (h : r.Lodges ts m r₁) (hstage : m.stage = .loaded)
    (hothers : ∀ x ∈ r.members, x.stage ≠ .loaded) :
    ∃ r₂, r₁.postLoad = (.ok 1, r₂) ∧ r.Lodges ts { m with stage := .postLoaded } r₂ := by
  have hrun : r.env.Lodges ts (m.runReported .postLoad r₁.env) :=
    h.env.runReported (h.quiet .postLoad (by simp)) h.actor
  have hmay : m.stage.mayBecome .postLoaded = true := by
    rw [hstage]
    rfl
  obtain ⟨e', hadvance, hattached⟩ := Member.advance_lodges hrun hmay
  have hone : attachAll [m] r₁.env = (.ok 1, [{ m with stage := .postLoaded }], e') := by
    simp only [attachAll, hstage, if_true, hadvance]
    rfl
  have hall : attachAll r₁.members r₁.env =
      (.ok 1, r.members ++ [{ m with stage := .postLoaded }], e') := by
    rw [h.members, attachAll_append hothers, hone]
  let r₂ : Rack := reportPass
    { r₁ with env := e', members := r.members ++ [{ m with stage := .postLoaded }] } "Post-load" (.ok 1)
  refine ⟨r₂, by rw [Rack.postLoad, hall], ?_⟩
  exact ⟨{ hattached with }, rfl, h.actor, h.new, h.needs, h.quiet, h.nextBatch⟩

/-! ## Unloading -/

/-- What a rack has become when a module has been loaded and unloaded again: members and registries
are what they were, lookups find what they found, and only numbers have been given out. -/
structure Restored (r : Rack) (ps : List Publication) (r' : Rack) : Prop where
  members : r'.members = r.members
  broker : r'.env.broker =
    r.env.broker.skip (ps.countP Publication.isExclusive) (ps.countP fun p => !p.isExclusive)
  leases : ∀ k, (r'.env.broker.lease r'.env.alive k).map Prod.fst =
    (r.env.broker.lease r.env.alive k).map Prod.fst
  panels : ∀ k, (r'.env.broker.panel r'.env.alive k).1 = (r.env.broker.panel r.env.alive k).1
  services : r.env.services <+: r'.env.services
  kept : r'.env.kept = r.env.kept
  hosted : r'.env.hosted = r.env.hosted
  slots : r'.env.slots = r.env.slots
  nextMember : r'.env.nextMember = r.env.nextMember + 1
  nextBatch : r'.nextBatch = r.nextBatch + 1

theorem Restored.of_outlives {r' : Rack} (h : r.env.Outlives ts r'.env)
    (hts : ts.map Ticket.isExclusive = ps.map Publication.isExclusive)
    (hm : r'.members = r.members) (hn : r'.nextBatch = r.nextBatch + 1) : r.Restored ps r' := by
  have hbroker : r'.env.broker =
      r.env.broker.skip (ps.countP Publication.isExclusive) (ps.countP fun p => !p.isExclusive) := by
    have hexclusive : ts.countP Ticket.isExclusive = ps.countP Publication.isExclusive := by
      have := congrArg (List.countP id) hts
      simpa [List.countP_map] using this
    have hadvisory : (ts.countP fun t => !t.isExclusive) = ps.countP fun p => !p.isExclusive := by
      have := congrArg (List.countP Bool.not) hts
      simpa [List.countP_map, Function.comp_def] using this
    rw [h.broker, Broker.skipAll, hexclusive, hadvisory]
  refine ⟨hm, hbroker, fun k => ?_, fun k => ?_, h.services, h.kept, h.hosted, h.slots,
    h.nextMember, hn⟩
  · rw [hbroker, h.alive, Broker.lease_skip]
    cases r.env.broker.lease r.env.alive k <;> rfl
  · rw [hbroker, h.alive, Broker.panel_skip]

theorem Lodges.find? (h : r.Lodges ts m r₁) : r₁.find? m.name = some m := by
  have hnone : r.members.find? (fun x => x.name = m.name) = none :=
    List.find?_eq_none.mpr fun x hx => by
      have hne : x.name ≠ m.name := fun heq => h.new (heq ▸ List.mem_map_of_mem hx)
      simpa using hne
  rw [Rack.find?, h.members, List.find?_append, hnone, List.find?_singleton]
  simp

/-- Nobody depends on what has been loaded last. -/
theorem Lodges.dependentsOf (h : r.Lodges ts m r₁) (ho : r.InLoadOrder) :
    r₁.dependentsOf m.name = [] := by
  rw [Rack.dependentsOf, h.members, List.map_eq_nil_iff, List.filter_eq_nil_iff]
  intro x hx hdepends
  have hin : m.name ∈ x.dependencies := by simpa using hdepends
  rcases List.mem_append.mp hx with hx | hx
  · obtain ⟨before, after, hsplit⟩ := List.append_of_mem hx
    obtain ⟨dep, hdep, heq⟩ := ho.closed before x after hsplit m.name hin
    have hmem : dep ∈ r.members := hsplit ▸ List.mem_append_left _ hdep
    exact h.new (heq ▸ List.mem_map_of_mem hmem)
  · rw [List.mem_singleton.mp hx] at hin
    exact h.new (h.needs _ hin)

theorem Lodges.without (h : r.Lodges ts m r₁) (hs : r.Sound) : without r₁.members m = r.members := by
  have hothers : ∀ x ∈ r.members, x.actor.member ≠ m.actor.member := fun x hx => by
    have hlt := (hs.settled x hx).issued
    have hown := h.actor
    omega
  rw [Rack.without, h.members, List.filter_append,
    List.filter_eq_self.mpr fun x hx => decide_eq_true (hothers x hx)]
  simp

/-- When it is unloaded again nothing is left of it. -/
theorem Lodges.unload (h : r.Lodges ts m r₁) (hstage : m.stage = .loaded ∨ m.stage = .postLoaded)
    (hs : r.Sound) (ho : r.InLoadOrder) (hclaims : r₁.env.claims = [])
    (hts : ts.map Ticket.isExclusive = ps.map Publication.isExclusive) :
    ∃ r₂, r₁.unload m.name = (.ok (), r₂) ∧ r.Restored ps r₂ := by
  let claimed := r₁.withClaims [m.name]
  have hbegun : r.env.Lodges ts claimed.env := { h.env with }
  obtain ⟨hidle, hhidden⟩ := hbegun.retire h.actor
  let hidden := (claimed.env.retireRegistrations m.actor).2
  obtain ⟨m', e₁, hready, hactor, hbody, hmay, hlodges⟩ :=
    Member.makeReady_lodges hhidden h.actor hstage h.quiet
  have hslots : ∀ x ∈ r.env.slots, x.1.home ≠ .member r.env.nextMember := fun x hx heq =>
    Nat.lt_irrefl _ (hs.env.balanced.homes x hx _ heq)
  obtain ⟨e₂, hdown, hgone⟩ := Member.teardown_outlives hlodges (hactor ▸ h.actor) hmay
    (hbody ▸ h.quiet .unload (by simp)) hslots
  have htake : { claimed with env := hidden }.takeOut m =
      (.ok (), ⟨e₂, r.members, r₁.nextBatch⟩) := by
    rw [takeOut_eq hready, hdown]
    exact congrArg (fun ms => (Except.ok (), (⟨e₂, ms, r₁.nextBatch⟩ : Rack))) (h.without hs)
  have hnamed : claimed.unloadNamed m.name = (.ok (), ⟨e₂, r.members, r₁.nextBatch⟩) := by
    have hfound : claimed.find? m.name = some m := h.find?
    have halone : claimed.dependentsOf m.name = [] := h.dependentsOf ho
    simp only [Rack.unloadNamed, hfound, halone, unloadMember, hidle]
    exact htake
  have hclaim : claimAll r₁.env.claims [m.name] = .ok [m.name] := by
    rw [hclaims]
    exact claimAll_singleton List.not_mem_nil
  refine ⟨Rack.release ⟨e₂, r.members, r₁.nextBatch⟩ [m.name], ?_, ?_⟩
  · rw [unload_eq]
    simp only [hclaim]
    rw [hnamed]
  · exact .of_outlives { hgone with } hts rfl h.nextBatch

end Rack

/-! ## There and back -/

/-- A module that only publishes, is not loaded yet and can be found, with all that it depends on,
is loaded, and unloaded again when it has been loaded or attached; and then everything is as if it
had never been loaded, but for the numbers.  There must be room for what it publishes, and neither
its name nor the reference to its unit may be blank. -/
theorem Reachable.round_trip (hr : Reachable r) (hname : isBlank name = false)
    (hunit : unit.any isBlank = false) (h : r.Offers name unit b) (hb : b.Publishes ps)
    (ha : r.env.broker.Admits ps) :
    ∃ r₁, r.add name unit = (.ok (), r₁) ∧
      (∃ r₂, r₁.unload name = (.ok (), r₂) ∧ r.Restored ps r₂) ∧
      ((∀ m ∈ r.members, m.stage ≠ .loaded) →
        ∃ r₂, r₁.postLoad = (.ok 1, r₂) ∧
          ∃ r₃, r₂.unload name = (.ok (), r₃) ∧ r.Restored ps r₃) := by
  obtain ⟨hs, hclaims⟩ := hr.sound
  have ho : r.InLoadOrder := .of_lawful hr.lawful
  obtain ⟨ts, m, r₁, hadd, hts, hlodges, rfl, hstage⟩ := h.add hname hunit hb ha hs hclaims
  have hr₁ : Reachable r₁ := by
    have hstep := hr.step (.call (.add m.name unit))
    simpa only [Session.step, Rack.answer, hadd] using hstep
  refine ⟨r₁, hadd, ?_, fun hothers => ?_⟩
  · exact hlodges.unload (Or.inl hstage) hs ho hr₁.sound.2 hts
  · obtain ⟨r₂, hpost, hattached⟩ := hlodges.postLoad hstage hothers
    have hr₂ : Reachable r₂ := by
      have hstep := hr₁.step (.call .postLoad)
      simpa only [Session.step, Rack.answer, hpost] using hstep
    exact ⟨r₂, hpost, hattached.unload (Or.inr rfl) hs ho hr₂.sound.2 hts⟩

/-- What a peddler publishes: a number of its own, and two scorers. -/
def wares : List Publication :=
  [.exclusive (.value ⟨"relay"⟩ false 0) none, .advisory (.scorer .bounty) 5 none,
    .advisory (.scorer (.perFlag 1)) (-5) (some "flags")]

/-- A module that depends on another and publishes what it has. -/
def peddler (name : String) (needs : List String) : Blueprint :=
  plain name
    { load := .perform (.publishInterface (.value ⟨"relay"⟩ false 0) none) fun _ =>
        .perform (.publishAdvisor (.scorer .bounty) 5 none) fun _ =>
          .perform (.publishAdvisor (.scorer (.perFlag 1)) (-5) (some "flags")) .settle }
    needs

theorem peddler_publishes (name : String) (needs : List String) :
    (peddler name needs).Publishes wares where
  prepared := rfl
  built := by
    refine ⟨_, rfl, .perform (.perform (.perform .finish)), fun hook hne => ?_⟩
    cases hook with
    | load => exact absurd rfl hne
    | _ => exact .finish

/-- A module that publishes is loaded and attached, and the host has published a scorer. -/
def marketplace : Rack :=
  Session.after (.offering [publisher "older" "chat", peddler "peddler" ["older"]])
    [.call (.add "older" none), .call .postLoad,
      .act "host" (.publishAdvisor (.scorer .bounty) 5 none)]

theorem marketplace_reachable : Reachable marketplace := (Reachable.offering _).after _

/-- The peddler comes and goes, and its scorers come before and after that of the host meanwhile. -/
theorem round_trip_marketplace :
    Reachable marketplace ∧ marketplace.Offers "peddler" none (peddler "peddler" ["older"]) ∧
    (peddler "peddler" ["older"]).Publishes wares ∧ marketplace.env.broker.Admits wares ∧
    ∃ r₁, marketplace.add "peddler" none = (.ok (), r₁) ∧
      r₁.env.broker.advisors.entries.map (·.owner) = ["peddler", "host", "peddler"] ∧
      (∃ r₂, r₁.unload "peddler" = (.ok (), r₂) ∧ marketplace.Restored wares r₂) ∧
      ∃ r₂, r₁.postLoad = (.ok 1, r₂) ∧
        ∃ r₃, r₂.unload "peddler" = (.ok (), r₃) ∧ marketplace.Restored wares r₃ := by
  have hoffers : marketplace.Offers "peddler" none (peddler "peddler" ["older"]) :=
    ⟨by decide, ⟨_, rfl, rfl⟩, by decide⟩
  have hroom : marketplace.env.broker.Admits wares := ⟨by decide, by decide⟩
  obtain ⟨r₁, hadd, hloaded, hattached⟩ := marketplace_reachable.round_trip (by decide) rfl hoffers
    (peddler_publishes _ _) hroom
  have hentries : (marketplace.add "peddler" none).2.env.broker.advisors.entries.map (·.owner) =
      ["peddler", "host", "peddler"] := by decide
  rw [hadd] at hentries
  exact ⟨marketplace_reachable, hoffers, peddler_publishes _ _, hroom, r₁, hadd, hentries, hloaded,
    hattached (by decide)⟩

/-- A rack that offers a peddler without a name, and one that offers a peddler in a library without
a name. -/
def unnamed : Rack × Rack :=
  (.offering [peddler "" []],
    { env := { depot :=
      { builtin := .ofList "core" []
        shelf :=
          { folder := { files := [(["units", "lib.so"], .empty)] }
            libraries := [(["units", "lib.so"], .ok (.ofList "stall" [peddler "peddler" []]))] }
        opener := Shelf.load
        folder := some "units" } } })

/-- What has a blank name, or is in a unit whose reference is blank, is there to be loaded, and there
is room for what it publishes; but it is refused. -/
theorem round_trip_blank :
    (Reachable unnamed.1 ∧ unnamed.1.Offers "" none (peddler "" []) ∧
      (peddler "" []).Publishes wares ∧ unnamed.1.env.broker.Admits wares ∧
      (unnamed.1.add "" none).1 = .error (.config (.invalid .blankName))) ∧
    Reachable unnamed.2 ∧ unnamed.2.Offers "peddler" (some "") (peddler "peddler" []) ∧
      (peddler "peddler" []).Publishes wares ∧ unnamed.2.env.broker.Admits wares ∧
      (unnamed.2.add "peddler" (some "")).1 = .error (.config (.invalid (.blankUnit "peddler"))) :=
  ⟨⟨.offering _, ⟨by decide, ⟨_, rfl, rfl⟩, by decide⟩, peddler_publishes _ _,
      ⟨by decide, by decide⟩, rfl⟩,
    .start _, ⟨by decide, ⟨_, rfl, rfl⟩, by decide⟩, peddler_publishes _ _, ⟨by decide, by decide⟩,
    rfl⟩

end Backplane
