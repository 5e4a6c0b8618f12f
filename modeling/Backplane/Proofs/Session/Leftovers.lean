import Backplane.Proofs.Session.Lawful
/-!
# `Backplane.Proofs.Session.Leftovers`: what unloading leaves in the registries

When a member is taken down its registrations are removed, and then its last hook is run.  So what
it has published until then is gone, and its capabilities are free; but what is published through
its dossier later, by that hook or by one of a member that is taken down after it, is left.

This is `teardown` of a `ModuleRecord`: `remove_registrations`, then the hook `unload`.
-/
namespace Backplane

variable {r r' : Rack} {m : Member} {xs : List (Member × Environment)} {name : String}

namespace Rack

/-- What an unloading leaves behind that takes down some members, each of which has its registrations
removed from an environment. -/
structure Vacated (r : Rack) (xs : List (Member × Environment)) (r' : Rack) : Prop where
  /-- Every member has had its registrations removed, or is still there. -/
  members : ∀ m ∈ r.members, (∃ x ∈ xs, x.1.actor = m.actor) ∨ m ∈ r'.members
  left : ∀ x ∈ xs, Emptied x r'.env
  /-- A capability is free if there is nothing left of it. -/
  free : ∀ k owner s, (∃ x, r'.env.broker.interfaces.register k owner s = .ok x) ↔
    ∀ n, r'.env.broker.usage? (.interface k.capability n) = none

theorem Shrinks.vacated (h : r.Shrinks xs r')
    (hm : ∀ m ∈ r.members, (∃ x ∈ xs, x.1.actor = m.actor) ∨ m ∈ r'.members) : r.Vacated xs r' :=
  ⟨hm, h.emptied, fun _ _ _ => Interfaces.register_ok_iff⟩

theorem exists_removal {ms : List Member} {env : Environment} (hm : m ∈ ms) :
    ∃ x ∈ removals ms env, x.1.actor = m.actor := by
  induction ms generalizing env with
  | nil => simp at hm
  | cons y ms ih =>
      rcases List.mem_cons.mp hm with rfl | hm
      · exact ⟨_, List.mem_cons_self, rfl⟩
      · obtain ⟨x, hx, hactor⟩ := @ih (y.teardown env).2 hm
        exact ⟨x, List.mem_cons_of_mem _ hx, hactor⟩

theorem ready_actor : (r.ready m).1.actor = m.actor := by
  rw [ready, Member.makeReady]
  split
  · next hm => rw [(Member.preUnload_of_postLoaded hm).2.1]
  · rfl

theorem removalsOf_eq (h : (r.unload name).1 = .ok ()) (hfind : r.find? name = some m) :
    ∃ x, r.removalsOf name = [x] ∧ x.1.actor = m.actor := by
  rw [unload_eq] at h
  rw [removalsOf, hfind]
  cases hclaim : claimAll r.env.claims [name] with
  | error other => simp [hclaim] at h
  | ok claims => exact ⟨_, rfl, ready_actor⟩

theorem Sound.unloadAll_vacated (hs : r.Sound) {names : List String}
    (h : r.unloadAll.1 = .ok names) :
    r.unloadAll.2.members = [] ∧ r.Vacated r.removalsOfAll r.unloadAll.2 := by
  rcases hs.unloadAll with ⟨⟨e, he⟩, -⟩ | ⟨-, hempty, hshrinks⟩
  · simp [he] at h
  · exact ⟨hempty, hshrinks.vacated fun m hm => Or.inl (exists_removal (List.mem_reverse.mpr hm))⟩

theorem Sound.unload_vacated (hs : r.Sound) (hnames : r.names.Nodup) (h : (r.unload name).1 = .ok ()) :
    name ∉ (r.unload name).2.names ∧ r.Vacated (r.removalsOf name) (r.unload name).2 := by
  rcases hs.unload name with ⟨⟨e, he⟩, -⟩ | ⟨m, hfind, -, hmembers, hshrinks⟩
  · simp [he] at h
  · obtain ⟨hm, rfl⟩ := mem_of_find? hfind
    refine ⟨fun hin => ?_, hshrinks.vacated fun x hx => ?_⟩
    · obtain ⟨x, hx, hname⟩ := List.mem_map.mp hin
      rw [hmembers] at hx
      obtain ⟨hx, hne⟩ := List.mem_filter.mp hx
      simp [List.inj_on_of_nodup_map hnames hx hm hname] at hne
    · by_cases heq : x.actor.member = m.actor.member
      · obtain ⟨y, hy, hactor⟩ := removalsOf_eq h hfind
        rw [List.inj_on_of_nodup_map hs.distinct hx hm heq, hy]
        exact Or.inl ⟨y, List.mem_singleton_self y, hactor⟩
      · exact Or.inr (hmembers ▸ List.mem_filter.mpr ⟨hx, decide_eq_true heq⟩)

end Rack

/-- Unloading, if it is not refused, removes what has been published until then through the dossiers
of those that it takes down; what is published through them afterwards is left. -/
theorem Reachable.leftovers_late (hr : Reachable r) (claims : List String) :
    (∀ names, (r.withClaims claims).unloadAll.1 = .ok names →
      (r.withClaims claims).unloadAll.2.members = [] ∧
      (r.withClaims claims).Vacated (r.withClaims claims).removalsOfAll
        (r.withClaims claims).unloadAll.2) ∧
    ∀ name, ((r.withClaims claims).unload name).1 = .ok () →
      name ∉ ((r.withClaims claims).unload name).2.names ∧
      (r.withClaims claims).Vacated ((r.withClaims claims).removalsOf name)
        ((r.withClaims claims).unload name).2 := by
  have hs : (r.withClaims claims).Sound := hr.sound.1.withClaims claims
  have hnames : (r.withClaims claims).names.Nodup := by
    have hordered := hr.lawful.ordered.names
    rwa [show r.roll.posts.map Post.name = r.names from names_rollOf] at hordered
  exact ⟨fun _ h => hs.unloadAll_vacated h, fun _ h => hs.unload_vacated hnames h⟩

/-- A module that publishes a number when it is unloaded. -/
def straggler : Blueprint :=
  plain "straggler"
    { unload := .perform (.publishInterface (.value ⟨"chat"⟩ false 0) none) .settle }

/-- That module has been loaded. -/
def straggling : Rack := Session.after (.offering [straggler]) [.call (.add "straggler" none)]

theorem straggling_reachable : Reachable straggling := (Reachable.offering _).after _

/-- Unloading that module leaves what it has published, which nobody can look up, and nobody else can
publish that capability. -/
theorem straggling_left :
    Reachable straggling ∧ (straggling.unload "straggler").1 = .ok () ∧
    (straggling.unload "straggler").2.members = [] ∧
    (straggling.unload "straggler").2.env.history = [.published (some 0) (.interface ⟨"chat"⟩ 1)] ∧
      (straggling.unload "straggler").2.env.broker.usage? (.interface ⟨"chat"⟩ 1) = some .fresh ∧
    ((Session.step (straggling.unload "straggler").2
        (.act "host" (.lease ⟨⟨"chat"⟩, .value⟩ none))).1,
      (Session.step (straggling.unload "straggler").2
        (.act "host" (.publishInterface (.value ⟨"chat"⟩ false 0) none))).1) =
      (.failed (.registry (.notFound ⟨"chat"⟩)),
        .failed (.registry (.duplicate ⟨"chat"⟩ "straggler"))) :=
  ⟨straggling_reachable, rfl, rfl, rfl, rfl, rfl⟩

/-- It was published after the registrations of that module had been removed. -/
theorem leftovers_late_straggling :
    Reachable straggling ∧ ∃ x ∈ straggling.removalsOf "straggler",
      Emptied x (straggling.unload "straggler").2.env ∧
      .published (some x.1.actor.member) (.interface ⟨"chat"⟩ 1) ∉ x.2.history := by
  have hall := (straggling_reachable.leftovers_late []).2 "straggler" rfl
  obtain ⟨x, hx, hactor⟩ : ∃ x ∈ straggling.removalsOf "straggler", x.1.actor.member = 0 :=
    ⟨_, List.mem_singleton_self _, rfl⟩
  have hleft : Emptied x (straggling.unload "straggler").2.env := hall.2.left x hx
  have hpub : .published (some x.1.actor.member) (.interface ⟨"chat"⟩ 1) ∈
      (straggling.unload "straggler").2.env.history := by
    rw [hactor]
    exact List.mem_singleton_self _
  exact ⟨straggling_reachable, x, hx, hleft, ((hleft _ hpub).mp rfl).1⟩

end Backplane
