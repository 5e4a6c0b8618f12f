import Backplane.Proofs.Session.Lawful
/-!
# `Backplane.Proofs.Session.Dependencies`: nobody before those it depends on

The members always stand in an order of loading: each behind all that its declaration and its
blueprint ask for, and the batches in the order in which they were begun.  So the hook on loading
runs only when all that an instance depends on has been loaded and is there, and nothing is taken
down or dropped before all who depend on it have been dropped.

The members are the `ModuleRecord`s of the `ModuleLoader`.
-/
namespace Backplane

variable {r r' : Rack} {m : Manifest}

namespace Rack

/-- Whether the members stand in an order of loading. -/
structure InLoadOrder (r : Rack) : Prop where
  names : r.names.Nodup
  closed : Stepwise (fun before m => ∀ x ∈ m.dependencies, ∃ dep ∈ before, dep.name = x) r.members
  batches : r.members.Pairwise fun m m' => m.batch ≤ m'.batch
  begun : ∀ m ∈ r.members, m.batch < r.nextBatch

/-- Whether all that has been built for a manifest, whether it has been loaded or not, depends on
what the manifest and the blueprints say. -/
structure Honours (r : Rack) (m : Manifest) (r' : Rack) : Prop where
  members : ∀ x ∈ r'.members, x ∈ r.members ∨ m.Declares r.env.depot x.name x.dependencies
  turns : ∃ news, r'.env.turns = r.env.turns ++ news ∧
    ∀ who needs, .built who needs ∈ news → m.Declares r.env.depot who.module needs

theorem posts_roll : r.roll.posts = r.members.map fun m => m.life.toPost := by
  rw [Roll.posts, roll, rollOf, List.map_map]
  rfl

theorem InLoadOrder.of_lawful (h : r.roll.Lawful) : r.InLoadOrder := by
  obtain ⟨hnames, hclosed, hbatches, hbegun⟩ := h.ordered
  rw [posts_roll] at hnames hclosed hbatches hbegun
  rw [List.pairwise_map] at hbatches
  refine ⟨?_, ?_, hbatches, fun m hm => hbegun _ (List.mem_map_of_mem hm)⟩
  · rw [List.map_map] at hnames
    exact hnames
  · refine (Stepwise.map_iff.mp hclosed).mono fun before m hall x hx => ?_
    obtain ⟨p, hp, rfl⟩ := List.mem_map.mp (hall x hx)
    obtain ⟨dep, hdep, rfl⟩ := List.mem_map.mp hp
    exact ⟨dep, hdep, rfl⟩

theorem Honours.of_outcome {res : Except LifecycleError (List String)}
    (ho : Outcome r (r.plan m).1 res r')
    (he : Roll.Entries (m.Declares r.env.depot) r.roll r'.roll) : r.Honours m r' := by
  obtain ⟨news, hnews⟩ := he.admitted
  refine ⟨fun x hx => ?_, news, hnews.turns, fun who needs hin => (hnews.built who needs hin).2⟩
  cases ho with
  | @loaded plan added _ hplan hadds =>
      rw [hadds.members] at hx
      refine (List.mem_append.mp hx).imp_right fun hx => ?_
      obtain ⟨p, hp, hbecomes⟩ := exists_of_forall₂ hadds.becomes hx
      obtain ⟨d, hd, hfound⟩ := (Plan.make_follows hplan).2 p hp
      rw [hbecomes.name, hbecomes.dependencies]
      exact hfound.declares hd
  | unwound hu hmembers => exact Or.inl (hmembers ▸ hx)
  | refused he => exact Or.inl hx

end Rack

/-- Whatever has been loaded, unloaded or unwound, everything stands and happens in the order of the
dependencies. -/
theorem Reachable.dependencies_first (hr : Reachable r) :
    r.InLoadOrder ∧ Stepwise Heeds r.env.turns ∧
    (∀ m ∈ r.members, .built m.actor m.dependencies ∈ r.env.turns) ∧
    ∀ claims,
      (∀ source m, source.read = .ok m →
        (r.withClaims claims).Honours m ((r.withClaims claims).load source).2) ∧
      ∀ name unit, (r.withClaims claims).Honours ⟨[{ name, unit }]⟩
        ((r.withClaims claims).add name unit).2 := by
  have hlawful := hr.lawful
  refine ⟨.of_lawful hlawful, hlawful.heeded, fun m hm => ?_, fun claims => ⟨fun source m hm => ?_,
    fun name unit => ?_⟩⟩
  · have hlived := hlawful.traced.living m.life (List.mem_map_of_mem hm)
    exact (mem_lifeline.mp (hlived.mem_built.mpr ⟨rfl, rfl⟩)).1
  all_goals have hs : (r.withClaims claims).Sound := hr.sound.1.withClaims claims
  · have ho := hs.load source
    have he := @Rack.load_entries (r.withClaims claims) source
    rw [Rack.planOf] at ho
    simp only [hm] at ho he
    exact .of_outcome ho he
  · exact .of_outcome (hs.loadManifest _) (Rack.loadManifest_entries _)

/-- Of two modules the second depends on the first.  It has been loaded, unloaded and loaded again,
and unloading the first has been refused meanwhile. -/
def stacked : Rack :=
  Session.after (.offering [plain "base", plain "top" {} ["base"]])
    [.call (.add "base" none), .call (.add "top" none), .call (.unload "base"),
      .call (.unload "top"), .call (.add "top" none)]

theorem stacked_reachable : Reachable stacked := (Reachable.offering _).after _

/-- The first has been loaded before either instance of the second, and has stayed. -/
theorem dependencies_first_stacked :
    Reachable stacked ∧ stacked.names = ["base", "top"] ∧ stacked.InLoadOrder ∧
      stacked.env.turns.filterMap Turn.hook? = [.load, .load, .unload, .load] ∧
      Stepwise Heeds stacked.env.turns :=
  have hall := stacked_reachable.dependencies_first
  ⟨stacked_reachable, rfl, hall.1, rfl, hall.2.1⟩

end Backplane
