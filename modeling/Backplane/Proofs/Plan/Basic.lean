import Backplane.Plan.Basic
import Backplane.Proofs.Bundle.Depot
import Backplane.Proofs.Distinct
import Backplane.Proofs.Plan.Order
/-!
# `Backplane.Proofs.Plan.Basic`: plans are least

A plan has every declared module once, each with the blueprint that its unit has for it and with all
that declaration and blueprint ask for.  Its order is the least, by the numbers of the declarations,
of those in which a module comes behind the declared modules that it depends on.

A plan is the `LoadPlan` of `plan_config`.
-/
namespace Backplane

/-- A declaration, and what has been found for it. -/
structure Located (depot : Depot) (d : Declaration) (p : PlannedModule) : Prop where
  name : p.name = d.name
  unit : depot.origin d.unit = .ok p.unit.origin
  blueprint : p.unit.bundle.find? d.name = some p.blueprint
  once : p.dependencies.Nodup
  needed : ∀ x, x ∈ p.dependencies ↔ x ∈ d.dependsOn ∨ x ∈ p.blueprint.dependencies
  /-- What the declaration asks for comes before what only the blueprint asks for. -/
  ordered : p.dependencies.Pairwise fun x y =>
    (d.dependsOn ++ p.blueprint.dependencies).idxOf x <
      (d.dependsOn ++ p.blueprint.dependencies).idxOf y

/-- Whether the modules, by number, that a module depends on have all come before. -/
def Awaited (located : List PlannedModule) (before : List Nat) (i : Nat) : Prop :=
  ∀ p, located[i]? = some p → ∀ j q, located[j]? = some q → q.name ∈ p.dependencies → j ∈ before

/-- Whether in an order of modules, by number, each comes behind those that it depends on. -/
def Respects (located : List PlannedModule) (order : List Nat) : Prop :=
  Stepwise (Awaited located) order

/-- A plan in the least order that respects what modules depend on. -/
structure LeastPlan (located : List PlannedModule) (order : List Nat) (plan : List PlannedModule) :
    Prop where
  /-- No module is lost, and none comes twice. -/
  complete : order.Perm (List.range located.length)
  planned : plan.map some = order.map (located[·]?)
  respects : Respects located order
  least : ∀ other, other.Perm (List.range located.length) → Respects located other → order ≤ other

variable {depot : Depot} {loaded seen names : List String} {d : Declaration}
  {ds : List Declaration} {p : PlannedModule} {located plan : List PlannedModule}

/-! ## Finding -/

theorem Located.of_locate (h : (Plan.locate depot d).result = .ok p) : Located depot d p := by
  rw [Plan.locate] at h
  cases hu : (depot.resolve d.unit).1 with
  | error e => simp [hu, Except.bind] at h
  | ok u =>
      simp only [hu, Except.bind, ResolvedUnit.blueprint] at h
      cases hb : u.bundle.find? d.name with
      | none => simp [hb, Except.map] at h
      | some b =>
          simp only [hb, Except.map, Except.ok.injEq] at h
          subst h
          refine ⟨rfl, ?_, hb, nodup_distinct, fun x => ?_, pairwise_distinct⟩
          · rw [Depot.origin, hu]
            rfl
          · rw [mem_distinct, List.mem_append]

/-- What is found does not depend on what has been looked for before. -/
theorem Located.of_resolve {a : Option String} (h : Located (depot.resolve a).2 d p) :
    Located depot d p :=
  { h with unit := Depot.origin_resolve.symm.trans h.unit }

theorem Plan.locateAll_ok (h : (Plan.locateAll depot ds).result = .ok located) :
    List.Forall₂ (Located depot) ds located := by
  induction ds generalizing depot located with
  | nil =>
      rw [← Except.ok.inj h]
      exact .nil
  | cons d ds ih =>
      rw [locateAll] at h
      cases hone : (locate depot d).result with
      | error e => simp [hone] at h
      | ok p =>
          simp only [hone] at h
          cases hmore : (locateAll (locate depot d).depot ds).result with
          | error e => simp [hmore, Except.map] at h
          | ok rest =>
              simp only [hmore, Except.map, Except.ok.injEq] at h
              subst h
              have hrest : List.Forall₂ (Located (depot.resolve d.unit).2) ds rest := ih hmore
              exact .cons (.of_locate hone) (hrest.imp fun _ _ hp => hp.of_resolve)

theorem Located.map_name (h : List.Forall₂ (Located depot) ds located) :
    located.map (·.name) = ds.map (·.name) := by
  induction h with
  | nil => rfl
  | cons hp _ ih => rw [List.map_cons, List.map_cons, hp.name, ih]

theorem exists_of_forall₂ {α β : Type} {R : α → β → Prop} {xs : List α} {ys : List β} {y : β}
    (h : List.Forall₂ R xs ys) (hy : y ∈ ys) : ∃ x ∈ xs, R x y := by
  induction h with
  | nil => simp at hy
  | @cons x z xs ys hxz _ ih =>
      rcases List.mem_cons.mp hy with rfl | hy
      · exact ⟨x, List.mem_cons_self, hxz⟩
      · obtain ⟨w, hw, hwy⟩ := ih hy
        exact ⟨w, List.mem_cons_of_mem _ hw, hwy⟩

theorem Located.all_once (h : List.Forall₂ (Located depot) ds located) :
    ∀ p ∈ located, p.dependencies.Nodup := by
  intro p hp
  obtain ⟨d, -, hd⟩ := exists_of_forall₂ h hp
  exact hd.once

/-- Declarations without a fault have names of their own. -/
theorem Plan.fault?_eq_none (h : Plan.fault? loaded seen ds = none) :
    (ds.map (·.name)).Nodup ∧ ∀ d ∈ ds, d.name ∉ loaded ∧ d.name ∉ seen := by
  induction ds generalizing seen with
  | nil => exact ⟨.nil, by simp⟩
  | cons d ds ih =>
      rw [fault?] at h
      cases hd : d.fault? with
      | some f => simp [hd] at h
      | none =>
          simp only [hd, List.contains_eq_mem, decide_eq_true_eq] at h
          by_cases hseen : d.name ∈ seen
          · simp [hseen] at h
          · by_cases hloaded : d.name ∈ loaded
            · simp [hseen, hloaded] at h
            · simp only [hseen, hloaded, if_false] at h
              obtain ⟨hnodup, hrest⟩ := ih h
              refine ⟨List.nodup_cons.mpr ⟨?_, hnodup⟩, fun x hx => ?_⟩
              · intro hmem
                obtain ⟨x, hx, heq⟩ := List.mem_map.mp hmem
                exact (hrest x hx).2 (heq ▸ List.mem_cons_self)
              · rcases List.mem_cons.mp hx with rfl | hx
                · exact ⟨hloaded, hseen⟩
                · exact (hrest x hx).imp_right fun hout hin => hout (List.mem_cons_of_mem _ hin)

/-! ## Arranging -/

namespace Plan

theorem missing?_eq_none (h : missing? names loaded located = none) :
    ∀ p ∈ located, ∀ x ∈ p.dependencies, x ∈ names ∨ x ∈ loaded := by
  intro p hp x hx
  have hnone := List.findSome?_eq_none_iff.mp h p hp
  simp only [Option.map_eq_none_iff] at hnone
  by_contra hnot
  obtain ⟨hn, hl⟩ := not_or.mp hnot
  simpa [hn, hl] using List.find?_eq_none.mp hnone x hx

theorem idxOf?_eq_some_iff (hn : names.Nodup) {x : String} {i : Nat} :
    names.idxOf? x = some i ↔ names[i]? = some x := by
  rw [List.idxOf?_eq_some_iff, List.getElem?_eq_some_iff]
  constructor
  · rintro ⟨hi, hx, -⟩
    exact ⟨hi, hx⟩
  · rintro ⟨hi, hx⟩
    refine ⟨hi, hx, fun j hj heq => ?_⟩
    exact Nat.ne_of_lt hj (hn.getElem_inj_iff.mp (heq.trans hx.symm))

/-- What a module needs, by number, are the located modules that it depends on. -/
theorem mem_needs (hn : (located.map (·.name)).Nodup) {i j : Nat} :
    j ∈ (located.map (needs (located.map (·.name)))).getD i [] ↔
      ∃ p, located[i]? = some p ∧ ∃ q, located[j]? = some q ∧ q.name ∈ p.dependencies := by
  rw [List.getD_eq_getElem?_getD, List.getElem?_map]
  cases located[i]? with
  | none => simp
  | some p =>
      simp only [Option.map_some, Option.getD_some, needs, List.mem_filterMap,
        idxOf?_eq_some_iff hn, List.getElem?_map, Option.map_eq_some_iff, Option.some.injEq,
        exists_eq_left']
      constructor
      · rintro ⟨_, hx, q, hq, rfl⟩
        exact ⟨q, hq, hx⟩
      · rintro ⟨q, hq, hx⟩
        exact ⟨q.name, hx, q, hq, rfl⟩

theorem nodup_needs (hn : names.Nodup) (hp : p.dependencies.Nodup) : (needs names p).Nodup := by
  refine hp.filterMap fun x y i hx hy => ?_
  rw [Option.mem_def, idxOf?_eq_some_iff hn] at hx hy
  exact Option.some.inj (hx.symm.trans hy)

theorem wellPosed (hn : (located.map (·.name)).Nodup) (hd : ∀ p ∈ located, p.dependencies.Nodup) :
    Order.WellPosed (located.map (needs (located.map (·.name)))) where
  once := by
    intro i
    rw [List.getD_eq_getElem?_getD, List.getElem?_map]
    cases hp : located[i]? with
    | none => exact .nil
    | some p => exact nodup_needs hn (hd p (List.mem_of_getElem? hp))
  known := by
    intro i j hj
    obtain ⟨-, -, q, hq, -⟩ := (mem_needs hn).mp hj
    rw [List.length_map]
    exact (List.getElem?_eq_some_iff.mp hq).1

theorem met_iff (hn : (located.map (·.name)).Nodup) {before : List Nat} {i : Nat} :
    Order.Met (located.map (needs (located.map (·.name)))) before i ↔ Awaited located before i := by
  constructor
  · intro h p hp j q hq hx
    exact h j ((mem_needs hn).mpr ⟨p, hp, q, hq, hx⟩)
  · intro h j hj
    obtain ⟨p, hp, q, hq, hx⟩ := (mem_needs hn).mp hj
    exact h p hp j q hq hx

theorem map_some_filterMap {order : List Nat} (h : ∀ i ∈ order, i < located.length) :
    (order.filterMap (located[·]?)).map some = order.map (located[·]?) := by
  induction order with
  | nil => rfl
  | cons i order ih =>
      have hlt : i < located.length := h i List.mem_cons_self
      have hi : located[i]? = some located[i] := List.getElem?_eq_getElem hlt
      rw [List.filterMap_cons_some hi, List.map_cons, List.map_cons, hi,
        ih fun j hj => h j (List.mem_cons_of_mem _ hj)]

theorem arrange_ok (hn : (located.map (·.name)).Nodup) (hd : ∀ p ∈ located, p.dependencies.Nodup)
    (h : arrange loaded located = .ok plan) :
    (∃ order, LeastPlan located order plan) ∧
      ∀ p ∈ located, ∀ x ∈ p.dependencies, x ∈ located.map (·.name) ∨ x ∈ loaded := by
  simp only [arrange] at h
  cases hm : missing? (located.map (·.name)) loaded located with
  | some e => simp [hm] at h
  | none =>
      simp only [hm] at h
      refine ⟨?_, missing?_eq_none hm⟩
      cases hr : Order.resolve (located.map (needs (located.map (·.name)))) with
      | error cycle => simp [hr] at h
      | ok order =>
          simp only [hr, Except.ok.injEq] at h
          obtain ⟨hperm, hmet, hleast⟩ := Order.resolve_ok (wellPosed hn hd) hr
          rw [List.length_map] at hperm hleast
          refine ⟨order, hperm, ?_, hmet.mono fun _ _ => (met_iff hn).mp, ?_⟩
          · rw [← h]
            exact map_some_filterMap fun i hi => List.mem_range.mp (hperm.subset hi)
          · intro other hother hrespects
            exact hleast other hother (hrespects.mono fun _ _ => (met_iff hn).mpr)

end Plan

/-! ## Planning -/

theorem Plan.make_ok {m : Manifest} (h : (Plan.make depot loaded m).result = .ok plan) :
    (m.modules.map (·.name)).Nodup ∧ (∀ d ∈ m.modules, d.name ∉ loaded) ∧
      ∃ located, List.Forall₂ (Located depot) m.modules located ∧
        arrange loaded located = .ok plan := by
  rw [make] at h
  cases hf : fault? loaded [] m.modules with
  | some e => simp [hf] at h
  | none =>
      simp only [hf] at h
      obtain ⟨hn, hnew⟩ := fault?_eq_none hf
      refine ⟨hn, fun d hd => (hnew d hd).1, ?_⟩
      cases hl : (locateAll depot m.modules).result with
      | error e => simp [hl, Except.bind] at h
      | ok located =>
          simp only [hl, Except.bind] at h
          exact ⟨located, locateAll_ok hl, h⟩

theorem LeastPlan.perm {order : List Nat} (h : LeastPlan located order plan) :
    plan.Perm located := by
  have hall : (List.range located.length).map (located[·]?) = located.map some := by
    refine List.ext_getElem (by simp) fun i hi _ => ?_
    have hlt : i < located.length := by simpa using hi
    simp [hlt]
  have hsome : (plan.map some).Perm (located.map some) := by
    rw [h.planned, ← hall]
    exact h.complete.map _
  have hid := hsome.filterMap id
  simpa [List.filterMap_map] using hid

/-- Whether a module can be loaded behind others: its name is new, and all that it depends on is
there. -/
def PlannedModule.Follows (there : List String) (p : PlannedModule) : Prop :=
  p.name ∉ there ∧ ∀ x ∈ p.dependencies, x ∈ there

/-- Whether a manifest declares a module of a name that needs modules of the given names: those that
the declaration asks for and those that the blueprint asks for. -/
def Manifest.Declares (m : Manifest) (depot : Depot) (name : String) (needs : List String) : Prop :=
  ∃ d ∈ m.modules, ∃ u b, d.name = name ∧ depot.origin d.unit = .ok u ∧ u.2.find? name = some b ∧
    ∀ x, x ∈ needs ↔ x ∈ d.dependsOn ∨ x ∈ b.dependencies

theorem Located.declares {m : Manifest} (h : Located depot d p) (hd : d ∈ m.modules) :
    m.Declares depot p.name p.dependencies := by
  refine ⟨d, hd, p.unit.origin, p.blueprint, h.name.symm, h.unit, ?_, h.needed⟩
  rw [h.name]
  exact h.blueprint

/-- Modules that are loaded as planned can be loaded one behind another. -/
theorem Plan.make_follows {m : Manifest} (h : (Plan.make depot loaded m).result = .ok plan) :
    Stepwise (fun before p => p.Follows (loaded ++ before.map (·.name))) plan ∧
      ∀ p ∈ plan, ∃ d ∈ m.modules, Located depot d p := by
  obtain ⟨hn, hnew, located, hall, harrange⟩ := make_ok h
  have hnames : (located.map (·.name)).Nodup := Located.map_name hall ▸ hn
  obtain ⟨⟨order, hleast⟩, hmissing⟩ := arrange_ok hnames (Located.all_once hall) harrange
  have hmem : ∀ p ∈ plan, ∃ d ∈ m.modules, Located depot d p := fun p hp =>
    exists_of_forall₂ hall (hleast.perm.subset hp)
  refine ⟨?_, hmem⟩
  have hplan : (plan.map (·.name)).Nodup := (hleast.perm.map _).nodup_iff.mpr hnames
  have honce := Stepwise.map_iff.mp (Stepwise.nodup_iff.mpr hplan)
  intro before p after heq
  have hp : p ∈ plan := by simp [heq]
  obtain ⟨d, hd, hfound⟩ := hmem p hp
  refine ⟨?_, fun x hx => ?_⟩
  · intro hin
    rcases List.mem_append.mp hin with hin | hin
    · exact hnew d hd (hfound.name ▸ hin)
    · exact honce before p after heq hin
  · rcases hmissing p (hleast.perm.subset hp) x hx with hin | hin
    · obtain ⟨q, hq, rfl⟩ := List.mem_map.mp hin
      obtain ⟨j, hj⟩ := List.mem_iff_getElem?.mp hq
      -- the module that it depends on has come before it
      have hsplit : order.map (located[·]?) = before.map some ++ some p :: after.map some := by
        rw [← hleast.planned, heq, List.map_append, List.map_cons]
      obtain ⟨front, back, horder, hfront, hback⟩ := List.map_eq_append_iff.mp hsplit
      obtain ⟨i, rest, rfl, hi, -⟩ := List.map_eq_cons_iff.mp hback
      have hjin : j ∈ front := hleast.respects front i rest horder p hi j q hj hx
      have hqin : some q ∈ before.map some := by
        rw [← hfront, ← hj]
        exact List.mem_map_of_mem hjin
      have hqb : q ∈ before := by simpa using hqin
      exact List.mem_append_right _ (List.mem_map_of_mem hqb)
    · exact List.mem_append_left _ hin

/-- A plan is the least order, by the numbers of the declarations, in which every module comes
behind the declared modules that it depends on. -/
theorem Plan.make_least {m : Manifest} (h : (Plan.make depot loaded m).result = .ok plan) :
    ∃ located order, List.Forall₂ (Located depot) m.modules located ∧
      LeastPlan located order plan := by
  obtain ⟨hn, -, located, hall, harrange⟩ := make_ok h
  have hnames : (located.map (·.name)).Nodup := Located.map_name hall ▸ hn
  obtain ⟨⟨order, hleast⟩, -⟩ := arrange_ok hnames (Located.all_once hall) harrange
  exact ⟨located, order, hall, hleast⟩

/-- Three modules: the first depends on the last, and the second, by its blueprint, on one that is
loaded. -/
def crossed : Manifest :=
  ⟨[{ name := "scores", dependsOn := ["chat"] }, { name := "filter" }, { name := "chat" }]⟩

/-- A depot that has a blueprint for each of them. -/
def crossedDepot : Depot where
  builtin := .ofList "core"
    [{ name := "scores", construction := .panicked none },
      { name := "filter", dependencies := ["prng"], construction := .panicked none },
      { name := "chat", construction := .panicked none }]

/-- The first of them has to wait until both others have come. -/
theorem make_least_crossed : ∃ plan, (Plan.make crossedDepot ["prng"] crossed).result = .ok plan ∧
    plan.map (·.name) = ["filter", "chat", "scores"] ∧
    ∃ located order, List.Forall₂ (Located crossedDepot) crossed.modules located ∧
      LeastPlan located order plan := by
  have hnames : (Plan.make crossedDepot ["prng"] crossed).result.map (·.map (·.name)) =
      .ok ["filter", "chat", "scores"] :=
    rfl
  cases h : (Plan.make crossedDepot ["prng"] crossed).result with
  | error e => simp [h, Except.map] at hnames
  | ok plan =>
      rw [h] at hnames
      exact ⟨plan, rfl, Except.ok.inj hnames, Plan.make_least h⟩

end Backplane
