import Backplane.Proofs.Lifecycle.Refusals
import Backplane.Proofs.Session.Dependencies
/-!
# `Backplane.Proofs.Session.Refusals`: what a request to unload comes to

What is loaded, who depends on whom, and what is in use decide what becomes of a request to unload:
it is refused if there is a reason to, with the reason that comes first, and granted otherwise.

The requests are `unload_all` and `unload_module`.
-/
namespace Backplane

variable {r : Rack}

/-- A request to unload is refused with an error exactly if the error states the reason; without a
reason it is granted. -/
theorem Reachable.unload_verdict (hr : Reachable r) (claims : List String) :
    (∀ e, (r.withClaims claims).unloadAll.1 = .error e ↔ (r.withClaims claims).RefusesAll e) ∧
    ((∀ e, ¬ (r.withClaims claims).RefusesAll e) →
      (r.withClaims claims).UnloadsAll (r.withClaims claims).unloadAll) ∧
    ∀ name, name ∉ claims →
      (∀ e, ((r.withClaims claims).unload name).1 = .error e ↔
        (r.withClaims claims).Refuses name e) ∧
      ((∀ e, ¬ (r.withClaims claims).Refuses name e) →
        (r.withClaims claims).Unloads name ((r.withClaims claims).unload name)) := by
  have hs : (r.withClaims claims).Sound := hr.sound.1.withClaims claims
  have hnames : (r.withClaims claims).names.Nodup := (Rack.InLoadOrder.of_lawful hr.lawful).names
  exact ⟨fun e => hs.unloadAll_refused, hs.unloadAll_unopposed, fun name hname =>
    ⟨fun e => hs.unload_refused hnames hname, hs.unload_unopposed hnames hname⟩⟩

/-- A module that publishes two numbers when it is loaded. -/
def twofold (name : String) (first second : Capability) (dependencies : List String := []) :
    Blueprint :=
  plain name
    { load := .perform (.publishInterface (.value first false 0) none) fun _ =>
        .perform (.publishInterface (.value second false 0) none) .settle }
    dependencies

/-- Of three modules the second depends on the first, and the host refers to what each of the two has
published last, and to what the second has published first as well. -/
def contested : Rack :=
  Session.after
    (.offering [twofold "base" ⟨"chat"⟩ ⟨"relay"⟩, twofold "top" ⟨"news"⟩ ⟨"feed"⟩ ["base"],
      plain "spare"])
    [.call (.add "base" none), .call (.add "top" none), .call (.add "spare" none),
      .act "host" (.lease ⟨⟨"relay"⟩, .value⟩ (some "x")),
      .act "host" (.lease ⟨⟨"feed"⟩, .value⟩ (some "y")),
      .act "host" (.lease ⟨⟨"news"⟩, .value⟩ (some "z"))]

theorem contested_reachable : Reachable contested := (Reachable.offering _).after _

/-- The host has given everything back. -/
def uncontested : Rack :=
  Session.after contested
    [.act "host" (.release "x"), .act "host" (.release "y"), .act "host" (.release "z")]

theorem uncontested_reachable : Reachable uncontested := contested_reachable.after _

/-- The module in use that was loaded last is named, with what it has published first; the module
that nobody needs goes alone, and all go when everything has been given back. -/
theorem unload_verdict_contested :
    Reachable contested ∧ Reachable uncontested ∧
    (contested.withClaims []).RefusesAll (.busy "top" ⟨"news"⟩ 1) ∧
    (contested.withClaims []).Refuses "missing" (.notLoaded "missing") ∧
    (contested.withClaims []).Refuses "base" (.hasDependents "base" ["top"]) ∧
    (contested.withClaims []).Refuses "top" (.busy "top" ⟨"news"⟩ 1) ∧
    (contested.withClaims []).Unloads "spare" ((contested.withClaims []).unload "spare") ∧
    (uncontested.withClaims []).UnloadsAll (uncontested.withClaims []).unloadAll := by
  obtain ⟨hall, -, hone⟩ := contested_reachable.unload_verdict []
  obtain ⟨hrefused, hgranted, -⟩ := uncontested_reachable.unload_verdict []
  have hnone : ∀ name : String, name ∉ ([] : List String) := fun _ => List.not_mem_nil
  refine ⟨contested_reachable, uncontested_reachable, (hall _).mp rfl,
    ((hone "missing" (hnone _)).1 _).mp rfl, ((hone "base" (hnone _)).1 _).mp rfl,
    ((hone "top" (hnone _)).1 _).mp rfl, (hone "spare" (hnone _)).2 fun e he => ?_,
    hgranted fun e he => ?_⟩
  · have hok : ((contested.withClaims []).unload "spare").1 = .ok () := rfl
    exact nomatch hok.symm.trans (((hone "spare" (hnone _)).1 e).mpr he)
  · have hok : (uncontested.withClaims []).unloadAll.1 = .ok ["spare", "top", "base"] := rfl
    exact nomatch hok.symm.trans ((hrefused e).mpr he)

end Backplane
