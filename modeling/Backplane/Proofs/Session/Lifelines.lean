import Backplane.Proofs.Session.Lawful
/-!
# `Backplane.Proofs.Session.Lifelines`: every instance has its hooks in order, and each once

Whatever the host asks for and in whatever order, and however hooks end, what befalls one instance
is one of few things, and nothing befalls it once it has been dropped.  Of a batch that fails no
instance has had another hook than that on loading.

An instance is a `Module`.
-/
namespace Backplane

variable {r r' : Rack} {due : String → List String → Prop}

namespace Rack

/-- What has befallen everybody who was ever built. -/
structure InOrder (r : Rack) : Prop where
  /-- Instances are told apart by their numbers. -/
  who : ∀ t ∈ r.env.turns, ∀ u ∈ r.env.turns, t.who.member = u.who.member → t.who = u.who
  built : ∀ t ∈ r.env.turns, ∃ needs, .built t.who needs ∈ r.env.turns
  hooks : ∀ t ∈ r.env.turns, hooksOf r.env.turns t.who.member ∈ hookOrders
  /-- Whoever is there has had the hooks that belong to its stage. -/
  there : ∀ m ∈ r.members, hooksOf r.env.turns m.actor.member ∈ hooksAt (some m.stage) ∧
    r.env.turns.count (.dropped m.actor) = 0
  gone : ∀ t ∈ r.env.turns, t.who.member ∉ r.members.map (·.actor.member) →
    hooksOf r.env.turns t.who.member ∈ hooksAt none ∧ r.env.turns.count (.dropped t.who) = 1
  /-- Nothing befalls anybody who has been dropped. -/
  quiet : Stepwise (fun past t => .dropped t.who ∉ past) r.env.turns

/-- Whether all who have been built, to no avail, have had the hook on loading and no other, and
have been dropped. -/
def Spoilt (r r' : Rack) : Prop :=
  ∀ who needs, .built who needs ∈ r'.env.turns → .built who needs ∉ r.env.turns →
    hooksOf r'.env.turns who.member = [.load] ∧ .dropped who ∈ r'.env.turns

theorem numbers_roll : r.roll.lives.map Life.number = r.members.map (·.actor.member) := by
  rw [roll, rollOf, List.map_map]
  rfl

theorem InOrder.of_lawful (h : r.roll.Lawful) : r.InOrder where
  who := fun _ ht _ hu => h.traced.who_eq ht hu
  built := fun _ => h.traced.built
  hooks := fun _ => h.traced.hooks
  there := by
    intro m hm
    have hlife : m.life ∈ r.roll.lives := List.mem_map_of_mem hm
    exact ⟨(h.traced.living _ hlife).hooks, List.count_eq_zero.mpr (h.traced.present hlife).2⟩
  gone := by
    intro t ht hout
    rw [← numbers_roll] at hout
    obtain ⟨needs, hlived⟩ := h.traced.gone t ht hout
    exact ⟨hlived.hooks, h.traced.count_dropped ht hout⟩
  quiet := h.traced.quiet

/-- Entries by which nobody has joined have spoilt all who were built. -/
theorem Spoilt.of_entries (h : r.roll.Lawful) (he : r.roll.Entries due r'.roll)
    (hm : r'.members = r.members) : r.Spoilt r' := by
  obtain ⟨news, hnews⟩ := he.admitted
  have h' := h.passages he.passages
  intro who needs hin hnew
  have hturns : r'.env.turns = r.env.turns ++ news := hnews.turns
  rw [hturns] at hin
  have hbuilt := (List.mem_append.mp hin).resolve_left hnew
  refine hnews.spoilt h h' hbuilt fun hin => ?_
  rw [numbers_roll, hm, ← numbers_roll] at hin
  obtain ⟨l, hl, hln⟩ := List.mem_map.mp hin
  have hlt := h.traced.number_lt hl
  rw [hln] at hlt
  exact Nat.not_lt.mpr (hnews.built who needs hbuilt).1 hlt

theorem Spoilt.refl (h : r'.env.turns = r.env.turns) : r.Spoilt r' :=
  fun _ _ hin hout => absurd (h ▸ hin) hout

theorem Outcome.members {planned : Except PlanError (List PlannedModule)} {e : LifecycleError}
    {res : Except LifecycleError (List String)} (ho : Outcome r planned res r')
    (he : res = .error e) : r'.members = r.members := by
  cases ho with
  | loaded => simp at he
  | unwound hu hmembers => exact hmembers
  | refused => rfl

end Rack

/-- Every instance has its hooks in the order of the stages, and is dropped once, and a batch that
fails gives its instances no hook but the first. -/
theorem Reachable.hooks_in_order (hr : Reachable r) :
    r.InOrder ∧ (∀ s, r.env.turns <+: (Session.step r s).2.env.turns) ∧
    ∀ claims,
      (∀ source e, ((r.withClaims claims).load source).1 = .error e →
        r.Spoilt ((r.withClaims claims).load source).2) ∧
      ∀ name unit e, ((r.withClaims claims).add name unit).1 = .error e →
        r.Spoilt ((r.withClaims claims).add name unit).2 := by
  have hlawful := hr.lawful
  refine ⟨.of_lawful hlawful, fun s => (Session.step_passages hr.sound.1 s).turns_extend,
    fun claims => ⟨fun source e he => ?_, fun name unit e he => ?_⟩⟩
  all_goals have hs : (r.withClaims claims).Sound := hr.sound.1.withClaims claims
  · have hentries := @Rack.load_entries (r.withClaims claims) source
    cases hread : source.read with
    | error x =>
        simp only [hread] at hentries
        rw [hentries]
        exact .refl rfl
    | ok m =>
        simp only [hread] at hentries
        exact .of_entries hlawful hentries ((hs.load source).members he)
  · have hentries := @Rack.loadManifest_entries (r.withClaims claims) ⟨[{ name, unit }]⟩
    have ho := hs.loadManifest ⟨[{ name, unit }]⟩
    refine .of_entries hlawful hentries ?_
    rw [Rack.add] at he
    cases hres : ((r.withClaims claims).loadManifest ⟨[{ name, unit }]⟩).1 with
    | ok names => simp [hres, Except.map] at he
    | error x => exact ho.members hres

/-- One module has gone through all stages, another is attached, and a third will fail to load. -/
def passing : Rack :=
  Session.after
    (.offering [plain "first", plain "second", plain "third" { load := .finish (.panicked none) }])
    [.call (.add "first" none), .call .postLoad, .call .preUnload, .call .unloadAll,
      .call (.add "second" none), .call .postLoad]

theorem passing_reachable : Reachable passing := (Reachable.offering _).after _

theorem hooks_in_order_passing :
    Reachable passing ∧ passing.InOrder ∧
      hooksOf passing.env.turns 0 = [.load, .postLoad, .preUnload, .unload] ∧
      hooksOf passing.env.turns 1 = [.load, .postLoad] ∧
      (∃ e, (passing.add "third" none).1 = .error e) ∧ passing.Spoilt (passing.add "third" none).2 :=
  have hall := passing_reachable.hooks_in_order
  ⟨passing_reachable, hall.1, rfl, rfl, ⟨_, rfl⟩, (hall.2.2 []).2 "third" none _ rfl⟩

end Backplane
