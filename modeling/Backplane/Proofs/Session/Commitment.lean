import Backplane.Proofs.Lifecycle.Commitment
import Backplane.Proofs.Session.Reachable
/-!
# `Backplane.Proofs.Session.Commitment`: no lookup slips in

Between the checks of an unloading and its end hooks of several modules may run.  Whatever they do,
nobody obtains a reference to what is about to be removed, so that it can be withdrawn like anything
that is not in use.

These are `unload_all` and `unload_module` of the `ModuleLoader`.
-/
namespace Backplane

variable {r : Rack}

/-- Once an unloading is committed, the registrations of the members concerned are seen off: nobody
obtains a reference to them any more, and each has been withdrawn before the unloading ends. -/
theorem Reachable.seen_off (hr : Reachable r) (claims : List String) :
    ((r.withClaims claims).MayUnloadAll →
      SeesOff (r.withClaims claims).committedAll (r.withClaims claims).unloadAll.2.env
        (r.withClaims claims).incidentsOfAll r.members.reverse) ∧
    ∀ name m, (r.withClaims claims).MayUnload name m →
      SeesOff ((r.withClaims claims).committed name m)
        (((r.withClaims claims).unload name).2.withClaims (claims ++ [name])).env
        ((r.withClaims claims).incidentsOf name m) [m] := by
  have hs : (r.withClaims claims).Sound := hr.sound.1.withClaims claims
  exact ⟨hs.unloadAll_seesOff, fun name m h => hs.unload_seesOff h⟩

/-- A module that publishes two numbers, and looks one of them up when it is about to be unloaded. -/
def giver : Blueprint :=
  plain "giver"
    { load := .perform (.publishInterface (.value ⟨"chat"⟩ false 0) (some "t")) fun _ =>
        .perform (.publishInterface (.value ⟨"relay"⟩ false 0) none) .settle
      preUnload := .perform (.lease ⟨⟨"chat"⟩, .value⟩ none) .settle }

/-- A module that, when it is unloaded, withdraws one of those numbers and looks both up. -/
def meddler : Blueprint :=
  plain "meddler"
    { unload := .perform (.lease ⟨⟨"chat"⟩, .value⟩ (some "g:x")) fun _ =>
        .perform (.withdraw "t") fun _ =>
          .perform (.lease ⟨⟨"relay"⟩, .value⟩ (some "g:y")) .settle }

/-- Both modules have been loaded and attached. -/
def meddled : Rack :=
  Session.after (.offering [giver, meddler])
    [.call (.add "giver" none), .call (.add "meddler" none), .call .postLoad]

theorem meddled_reachable : Reachable meddled := (Reachable.offering _).after _

/-- They have been detached. -/
def detached : Rack := Session.after meddled [.call .preUnload]

theorem detached_reachable : Reachable detached := meddled_reachable.after _

/-- Nobody obtains anything, and each number is withdrawn: one by the other module's hook, which asks
for it by name. -/
theorem seen_off_meddled :
    Reachable detached ∧ (detached.withClaims []).MayUnloadAll ∧
    (detached.withClaims []).committedAll.ticketsOfAll detached.members.reverse =
      [.interface ⟨"chat"⟩ 1, .interface ⟨"relay"⟩ 2] ∧
    SeesOff (detached.withClaims []).committedAll (detached.withClaims []).unloadAll.2.env
      (detached.withClaims []).incidentsOfAll detached.members.reverse ∧
    (detached.withClaims []).incidentsOfAll.flatMap Incident.obtained = [] ∧
    .withdrawn (.interface ⟨"chat"⟩ 1) ∈ (detached.withClaims []).unloadAll.2.env.history ∧
    Reachable meddled ∧ ∃ m, (meddled.withClaims []).MayUnload "giver" m ∧
      SeesOff ((meddled.withClaims []).committed "giver" m)
        (((meddled.withClaims []).unload "giver").2.withClaims ["giver"]).env
        ((meddled.withClaims []).incidentsOf "giver" m) [m] ∧
      ((meddled.withClaims []).incidentsOf "giver" m).flatMap Incident.obtained = [] := by
  have hall : (detached.withClaims []).MayUnloadAll := by
    refine ⟨fun m hm => ?_, rfl⟩
    rcases List.mem_cons.mp hm with rfl | hm
    · exact Stage.noConfusion
    · rw [List.mem_singleton.mp hm]
      exact Stage.noConfusion
  have hone : ∃ m, (meddled.withClaims []).MayUnload "giver" m ∧
      ((meddled.withClaims []).incidentsOf "giver" m).flatMap Incident.obtained = [] :=
    ⟨_, ⟨List.not_mem_nil, rfl, rfl, rfl⟩, rfl⟩
  obtain ⟨m, hmay, hnone⟩ := hone
  exact ⟨detached_reachable, hall, rfl, (detached_reachable.seen_off []).1 hall, rfl,
    by decide, meddled_reachable, m, hmay, (meddled_reachable.seen_off []).2 "giver" m hmay, hnone⟩

end Backplane
