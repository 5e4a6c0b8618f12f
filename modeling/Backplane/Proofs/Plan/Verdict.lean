import Backplane.Proofs.Plan.Basic
import Backplane.Proofs.Plan.Cycles
/-!
# `Backplane.Proofs.Plan.Verdict`: which manifests can be planned, and what is said of the others

A manifest is valid if nothing in it is blank, its names are its own, each declaration leads to a
blueprint, all that is asked for is declared or loaded, and the declared modules do not depend on
one another in a circle.  Exactly the valid manifests have a plan.  Of any other the error names the
fault that comes first: first faults of the declarations by themselves, then blueprints that cannot
be found, then dependencies that are not there, each time in the order of the manifest, and last
of all circles.

The plan is that of `plan_config`, the errors are `CatalogError`s.
-/
namespace Backplane

open Relation (TransGen)

/-! ## What is asked of a manifest -/

/-- Whether nothing in a declaration is blank. -/
structure Declaration.Filled (d : Declaration) : Prop where
  name : isBlank d.name = false
  unit : ∀ u, d.unit = some u → isBlank u = false
  dependsOn : ∀ x ∈ d.dependsOn, isBlank x = false

/-- Whether a declaration has no fault of its own behind declarations of the given names. -/
structure Declaration.Passes (loaded before : List String) (d : Declaration) : Prop where
  filled : d.Filled
  once : d.name ∉ before
  fresh : d.name ∉ loaded

/-- The faults of a declaration by itself.  Of several the first in this order counts. -/
inductive Declaration.Fails (loaded before : List String) (d : Declaration) : PlanError → Prop
  | blankName (hn : isBlank d.name) : d.Fails loaded before (.invalid .blankName)
  | blankUnit {u : String} (hn : isBlank d.name = false) (hu : d.unit = some u) (hb : isBlank u) :
      d.Fails loaded before (.invalid (.blankUnit d.name))
  | blankDependency {x : String} (hn : isBlank d.name = false)
      (hu : ∀ u, d.unit = some u → isBlank u = false) (hx : x ∈ d.dependsOn) (hb : isBlank x) :
      d.Fails loaded before (.invalid (.blankDependency d.name))
  | declaredTwice (hf : d.Filled) (hb : d.name ∈ before) :
      d.Fails loaded before (.declaredTwice d.name)
  | alreadyLoaded (hf : d.Filled) (hb : d.name ∉ before) (hl : d.name ∈ loaded) :
      d.Fails loaded before (.alreadyLoaded d.name)

/-- Whether a declaration leads to a blueprint: its unit is found, and has one of its name. -/
def Depot.Provides (depot : Depot) (d : Declaration) (b : Blueprint) : Prop :=
  ∃ unit, depot.origin d.unit = .ok unit ∧ unit.2.find? d.name = some b

/-- The ways in which a declaration does not lead to a blueprint. -/
inductive Depot.Lacks (depot : Depot) (d : Declaration) : PlanError → Prop
  | unit {r : String} {fault : LibraryFault} (hr : d.unit = some r)
      (h : depot.origin d.unit = .error (.unitNotFound r fault)) :
      depot.Lacks d (.unitNotFound r fault)
  | blueprint {unit : String × Bundle} (h : depot.origin d.unit = .ok unit)
      (hb : unit.2.find? d.name = none) : depot.Lacks d (.notInUnit unit.1 d.name)

/-- What a module is declared to need, and then what its blueprint asks for. -/
def Depot.asked (depot : Depot) (d : Declaration) : List String :=
  d.dependsOn ++
    match depot.origin d.unit with
    | .ok unit => ((unit.2.find? d.name).map (·.dependencies)).getD []
    | .error _ => []

namespace Manifest

def names (m : Manifest) : List String := m.modules.map (·.name)

/-- Whether of two declared modules one depends on the other. -/
def DependsOn (m : Manifest) (depot : Depot) (x y : String) : Prop :=
  (∃ d ∈ m.modules, d.name = x ∧ y ∈ depot.asked d) ∧ y ∈ m.names

/-- Whether declared modules depend on one another in a circle. -/
def Circular (m : Manifest) (depot : Depot) : Prop := ∃ x, TransGen (m.DependsOn depot) x x

/-- Whether a module of a name will be there. -/
def Supplies (m : Manifest) (loaded : List String) (x : String) : Prop := x ∈ m.names ∨ x ∈ loaded

structure Valid (m : Manifest) (depot : Depot) (loaded : List String) : Prop where
  filled : ∀ d ∈ m.modules, d.Filled
  once : m.names.Nodup
  fresh : ∀ d ∈ m.modules, d.name ∉ loaded
  provided : ∀ d ∈ m.modules, ∃ b, depot.Provides d b
  supplied : ∀ d ∈ m.modules, ∀ x ∈ depot.asked d, m.Supplies loaded x
  acyclic : ¬ m.Circular depot

/-- The error for a manifest.  Whatever it says of one declaration is not true of any before it, and
what is checked before holds of all. -/
inductive Faulty (m : Manifest) (depot : Depot) (loaded : List String) : PlanError → Prop
  | declaration {before d after e} (hm : m.modules = before ++ d :: after)
      (hfirst : Stepwise (fun front c => c.Passes loaded (front.map (·.name))) before)
      (h : d.Fails loaded (before.map (·.name)) e) : m.Faulty depot loaded e
  | blueprint {before d after e}
      (hpass : Stepwise (fun front c => c.Passes loaded (front.map (·.name))) m.modules)
      (hm : m.modules = before ++ d :: after) (hfirst : ∀ c ∈ before, ∃ b, depot.Provides c b)
      (h : depot.Lacks d e) : m.Faulty depot loaded e
  | dependency {before d after front x back}
      (hpass : Stepwise (fun front c => c.Passes loaded (front.map (·.name))) m.modules)
      (hall : ∀ d ∈ m.modules, ∃ b, depot.Provides d b) (hm : m.modules = before ++ d :: after)
      (hfirst : ∀ c ∈ before, ∀ y ∈ depot.asked c, m.Supplies loaded y)
      (hd : depot.asked d = front ++ x :: back) (hfront : ∀ y ∈ front, m.Supplies loaded y)
      (h : ¬ m.Supplies loaded x) : m.Faulty depot loaded (.missingDependency d.name x)
  | circle {names}
      (hpass : Stepwise (fun front c => c.Passes loaded (front.map (·.name))) m.modules)
      (hall : ∀ d ∈ m.modules, ∃ b, depot.Provides d b)
      (hsupplied : ∀ d ∈ m.modules, ∀ x ∈ depot.asked d, m.Supplies loaded x)
      (h : m.Circular depot) : m.Faulty depot loaded (.cycle names)

end Manifest

variable {depot : Depot} {loaded seen names : List String} {d : Declaration}
  {ds : List Declaration} {p : PlannedModule} {located plan : List PlannedModule} {m : Manifest}
  {e : PlanError} {b : Blueprint}

/-! ## Declarations by themselves -/

theorem Declaration.fault?_eq_none_iff : d.fault? = none ↔ d.Filled := by
  constructor
  · intro h
    rw [fault?] at h
    split_ifs at h with hn hu hd
    simp only [Option.any_eq_true, not_exists, not_and, List.any_eq_true, Bool.not_eq_true] at hn hu hd
    exact ⟨hn, hu, hd⟩
  · rintro ⟨hn, hu, hd⟩
    have hu' : d.unit.any isBlank = false := by
      cases h : d.unit with
      | none => rfl
      | some u => simp [hu u h]
    have hd' : d.dependsOn.any isBlank = false := by simpa using hd
    simp [fault?, hn, hu', hd']

theorem Declaration.fails_of_fault? {f : DeclarationFault} {before : List String}
    (h : d.fault? = some f) : d.Fails loaded before (.invalid f) := by
  rw [fault?] at h
  split_ifs at h with hn hu hd <;> obtain rfl := Option.some.inj h
  · exact .blankName hn
  · obtain ⟨u, hu, hb⟩ := Option.any_eq_true .. |>.mp hu
    exact .blankUnit (by simpa using hn) hu hb
  · obtain ⟨x, hx, hb⟩ := List.any_eq_true.mp hd
    refine .blankDependency (by simpa using hn) (fun u hu' => ?_) hx hb
    simpa [hu'] using hu

/-- The first of the declarations that does not pass ends the check. -/
theorem Plan.fault?_eq_some (h : Plan.fault? loaded seen ds = some e) :
    ∃ before d after, ds = before ++ d :: after ∧
      Stepwise (fun front c => c.Passes loaded (seen.reverse ++ front.map (·.name))) before ∧
      d.Fails loaded (seen.reverse ++ before.map (·.name)) e := by
  induction ds generalizing seen with
  | nil => simp [fault?] at h
  | cons d ds ih =>
      rw [fault?] at h
      cases hd : d.fault? with
      | some f =>
          simp only [hd, Option.some.injEq] at h
          exact ⟨[], d, ds, rfl, .nil, h ▸ Declaration.fails_of_fault? hd⟩
      | none =>
          have hfilled : d.Filled := Declaration.fault?_eq_none_iff.mp hd
          simp only [hd, List.contains_eq_mem, decide_eq_true_eq] at h
          split_ifs at h with hseen hloaded
          · obtain rfl := Option.some.inj h
            exact ⟨[], d, ds, rfl, .nil, .declaredTwice hfilled (by simpa using hseen)⟩
          · obtain rfl := Option.some.inj h
            exact ⟨[], d, ds, rfl, .nil, .alreadyLoaded hfilled (by simpa using hseen) hloaded⟩
          · obtain ⟨before, c, after, rfl, hfirst, hc⟩ := ih h
            refine ⟨d :: before, c, after, rfl, Stepwise.cons_iff.mpr ⟨?_, ?_⟩, ?_⟩
            · exact ⟨hfilled, by simpa using hseen, hloaded⟩
            · simpa using hfirst
            · simpa using hc

theorem Plan.passes_of_fault? (h : Plan.fault? loaded seen ds = none) :
    Stepwise (fun front c => c.Passes loaded (seen.reverse ++ front.map (·.name))) ds := by
  induction ds generalizing seen with
  | nil => exact .nil
  | cons d ds ih =>
      rw [fault?] at h
      cases hd : d.fault? with
      | some f => simp [hd] at h
      | none =>
          simp only [hd, List.contains_eq_mem, decide_eq_true_eq] at h
          split_ifs at h with hseen hloaded
          refine Stepwise.cons_iff.mpr ⟨?_, by simpa using ih h⟩
          exact ⟨Declaration.fault?_eq_none_iff.mp hd, by simpa using hseen, hloaded⟩

/-- A declaration that passes has no fault. -/
theorem Declaration.Passes.not_fails {before : List String} (h : d.Passes loaded before) :
    ¬ d.Fails loaded before e := by
  intro hfail
  cases hfail with
  | blankName hn => simp [h.filled.name] at hn
  | blankUnit _ hu hb => simp [h.filled.unit _ hu] at hb
  | blankDependency _ _ hx hb => simp [h.filled.dependsOn _ hx] at hb
  | declaredTwice _ hb => exact h.once hb
  | alreadyLoaded _ _ hl => exact h.fresh hl

/-- What each declaration has to pass behind those before it is what is asked of all of them. -/
theorem Declaration.passes_iff :
    Stepwise (fun front c => c.Passes loaded (front.map (·.name))) ds ↔
      (∀ d ∈ ds, d.Filled) ∧ (ds.map (·.name)).Nodup ∧ ∀ d ∈ ds, d.name ∉ loaded := by
  have honce : (ds.map (·.name)).Nodup ↔
      Stepwise (fun front (c : Declaration) => c.name ∉ front.map (·.name)) ds := by
    rw [← Stepwise.nodup_iff, Stepwise.map_iff]
  constructor
  · intro h
    refine ⟨fun d hd => ?_, honce.mpr (h.mono fun _ _ hc => hc.once), fun d hd => ?_⟩
    · obtain ⟨_, hp, -⟩ := h.exists_of_mem hd
      exact hp.filled
    · obtain ⟨_, hp, -⟩ := h.exists_of_mem hd
      exact hp.fresh
  · rintro ⟨hfilled, hnodup, hfresh⟩ before d after heq
    have hd : d ∈ ds := by simp [heq]
    exact ⟨hfilled d hd, honce.mp hnodup before d after heq, hfresh d hd⟩

/-! ## Blueprints -/

theorem Depot.origin_error {a : Option String} (h : depot.origin a = .error e) :
    ∃ r fault, a = some r ∧ e = .unitNotFound r fault := by
  have hres := depot.resolves a
  rw [origin] at h
  generalize depot.find a = f, depot.resolve a = x at hres h
  cases hres with
  | known => cases h
  | opened => cases h
  | @failed fault path hnone =>
      cases a with
      | none => cases hnone
      | some r => exact ⟨r, fault, rfl, (Except.error.inj h).symm⟩

theorem Depot.lacks_of_locate (h : (Plan.locate depot d).result = .error e) : depot.Lacks d e := by
  rw [Plan.locate] at h
  cases hu : (depot.resolve d.unit).1 with
  | error f =>
      have horigin : depot.origin d.unit = .error f := by rw [origin, hu]; rfl
      obtain ⟨r, fault, hr, rfl⟩ := origin_error horigin
      simp only [hu, Except.bind, Except.error.injEq] at h
      exact h ▸ .unit hr horigin
  | ok u =>
      have horigin : depot.origin d.unit = .ok u.origin := by rw [origin, hu]; rfl
      simp only [hu, Except.bind, ResolvedUnit.blueprint] at h
      cases hb : u.bundle.find? d.name with
      | some b => simp [hb, Except.map] at h
      | none =>
          simp only [hb, Except.map, Except.error.injEq] at h
          exact h ▸ .blueprint horigin hb

theorem Depot.Lacks.of_resolve {a : Option String} (h : (depot.resolve a).2.Lacks d e) :
    depot.Lacks d e := by
  cases h with
  | unit hr h => exact .unit hr (origin_resolve.symm.trans h)
  | blueprint h hb => exact .blueprint (origin_resolve.symm.trans h) hb

theorem Depot.Provides.of_resolve {a : Option String} (h : (depot.resolve a).2.Provides d b) :
    depot.Provides d b := by
  obtain ⟨unit, hu, hb⟩ := h
  exact ⟨unit, origin_resolve.symm.trans hu, hb⟩

theorem Depot.Provides.not_lacks (h : depot.Provides d b) : ¬ depot.Lacks d e := by
  obtain ⟨unit, hu, hb⟩ := h
  intro hlacks
  cases hlacks with
  | unit hr h => simp [hu] at h
  | blueprint h hnone =>
      obtain rfl := Except.ok.inj (hu.symm.trans h)
      simp [hb] at hnone

theorem Located.provides (h : Located depot d p) : depot.Provides d p.blueprint :=
  ⟨p.unit.origin, h.unit, h.blueprint⟩

/-- The first declaration that does not lead to a blueprint ends the search. -/
theorem Plan.locateAll_error (h : (Plan.locateAll depot ds).result = .error e) :
    ∃ before d after, ds = before ++ d :: after ∧ (∀ c ∈ before, ∃ b, depot.Provides c b) ∧
      depot.Lacks d e := by
  induction ds generalizing depot with
  | nil => simp [locateAll] at h
  | cons d ds ih =>
      rw [locateAll] at h
      cases hone : (locate depot d).result with
      | error f =>
          simp only [hone, Except.error.injEq] at h
          exact ⟨[], d, ds, rfl, by simp, h ▸ Depot.lacks_of_locate hone⟩
      | ok p =>
          simp only [hone] at h
          cases hmore : (locateAll (locate depot d).depot ds).result with
          | ok rest => simp [hmore, Except.map] at h
          | error f =>
              simp only [hmore, Except.map, Except.error.injEq] at h
              subst h
              obtain ⟨before, c, after, rfl, hbefore, hc⟩ := ih hmore
              have hlacks : (depot.resolve d.unit).2.Lacks c f := hc
              refine ⟨d :: before, c, after, rfl, fun x hx => ?_, hlacks.of_resolve⟩
              rcases List.mem_cons.mp hx with rfl | hx
              · exact ⟨p.blueprint, (Located.of_locate hone).provides⟩
              · obtain ⟨b, hb⟩ := hbefore x hx
                have hprovides : (depot.resolve d.unit).2.Provides x b := hb
                exact ⟨b, hprovides.of_resolve⟩

/-! ## Dependencies -/

theorem Located.asked (h : Located depot d p) :
    depot.asked d = d.dependsOn ++ p.blueprint.dependencies := by
  rw [Depot.asked, h.unit]
  have hb : p.unit.origin.2.find? d.name = some p.blueprint := h.blueprint
  simp [hb]

theorem Located.mem_asked (h : Located depot d p) {x : String} :
    x ∈ depot.asked d ↔ x ∈ p.dependencies := by
  rw [h.asked, List.mem_append, h.needed]

/-- Of what is asked for, each thing comes once, where it is asked for first. -/
theorem Located.dependencies_eq (h : Located depot d p) :
    p.dependencies = distinct (depot.asked d) := by
  have hperm : p.dependencies.Perm (distinct (depot.asked d)) := by
    refine (List.perm_ext_iff_of_nodup h.once nodup_distinct).mpr fun x => ?_
    rw [mem_distinct, h.mem_asked]
  have hordered := h.ordered
  rw [← h.asked] at hordered
  refine hperm.eq_of_pairwise ?_ hordered pairwise_distinct
  intro x y _ _ hxy hyx
  exact absurd hxy (Nat.not_lt.mpr hyx.le)

theorem find?_distinct {α : Type} [DecidableEq α] {f : α → Bool} {xs : List α} :
    (distinct xs).find? f = xs.find? f := by
  induction xs with
  | nil => rfl
  | cons x xs ih =>
      rw [distinct, List.find?_cons, List.find?_cons]
      cases hx : f x with
      | true => rfl
      | false =>
          simp only
          rw [List.find?_filter, ← ih]
          congr 1
          funext y
          by_cases hy : y = x <;> simp [hy, hx]

theorem Plan.missing?_eq_some (hall : List.Forall₂ (Located depot) ds located)
    (h : Plan.missing? names loaded located = some e) :
    ∃ before d after front x back, ds = before ++ d :: after ∧
      (∀ c ∈ before, ∀ y ∈ depot.asked c, y ∈ names ∨ y ∈ loaded) ∧
      depot.asked d = front ++ x :: back ∧ (∀ y ∈ front, y ∈ names ∨ y ∈ loaded) ∧
      ¬ (x ∈ names ∨ x ∈ loaded) ∧ e = .missingDependency d.name x := by
  induction hall with
  | nil => simp [missing?] at h
  | @cons d p ds located hp _ ih =>
      rw [missing?, List.findSome?_cons, hp.dependencies_eq, find?_distinct] at h
      cases hfind : (depot.asked d).find? fun x => !names.contains x && !loaded.contains x with
      | some x =>
          obtain ⟨hx, front, back, hasked, hfront⟩ := List.find?_eq_some_iff_append.mp hfind
          simp only [hfind, Option.map_some, Option.some.injEq] at h
          refine ⟨[], d, ds, front, x, back, rfl, by simp, hasked, fun y hy => ?_, ?_, ?_⟩
          · by_contra hnot
            simpa [not_or.mp hnot] using hfront y hy
          · simpa using hx
          · rw [← h, hp.name]
      | none =>
          simp only [hfind, Option.map_none] at h
          obtain ⟨before, c, after, front, x, back, rfl, hbefore, hrest⟩ := ih h
          refine ⟨d :: before, c, after, front, x, back, rfl, fun b hb y hy => ?_, hrest⟩
          rcases List.mem_cons.mp hb with rfl | hb
          · by_contra hnot
            simpa [not_or.mp hnot] using List.find?_eq_none.mp hfind y hy
          · exact hbefore b hb y hy

/-! ## Circles -/

theorem getElem?_idxOf_name (hn : (located.map (·.name)).Nodup) (hp : p ∈ located) :
    located[(located.map (·.name)).idxOf p.name]? = some p := by
  obtain ⟨i, hi, rfl⟩ := List.mem_iff_getElem.mp hp
  have hlt : i < (located.map (·.name)).length := by simpa using hi
  have hidx := hn.idxOf_getElem i hlt
  rw [List.getElem_map] at hidx
  rw [hidx, List.getElem?_eq_getElem hi]

theorem Located.names_eq (hall : List.Forall₂ (Located depot) m.modules located) :
    located.map (·.name) = m.names :=
  Located.map_name hall

/-- What a declared module depends on is what its located counterpart does. -/
theorem Located.dependsOn_iff (hall : List.Forall₂ (Located depot) m.modules located) {x y : String} :
    m.DependsOn depot x y ↔
      ∃ p ∈ located, p.name = x ∧ ∃ q ∈ located, q.name = y ∧ y ∈ p.dependencies := by
  rw [Manifest.DependsOn, ← Located.names_eq hall, List.mem_map]
  constructor
  · rintro ⟨⟨d, hd, rfl, hy⟩, q, hq, rfl⟩
    obtain ⟨p, hp, hdp⟩ := exists_of_forall₂ hall.flip hd
    exact ⟨p, hp, hdp.name, q, hq, rfl, hdp.mem_asked.mp hy⟩
  · rintro ⟨p, hp, rfl, q, hq, rfl, hy⟩
    obtain ⟨d, hd, hdp⟩ := exists_of_forall₂ hall hp
    exact ⟨⟨d, hd, hdp.name.symm, hdp.mem_asked.mpr hy⟩, q, hq, rfl⟩

/-- Circles among names are cycles among numbers. -/
theorem Located.circular_iff (hall : List.Forall₂ (Located depot) m.modules located)
    (hn : (located.map (·.name)).Nodup) :
    m.Circular depot ↔ Order.Cyclic (located.map (Plan.needs (located.map (·.name)))) := by
  constructor
  · rintro ⟨x, hx⟩
    refine ⟨_, hx.lift (located.map (·.name)).idxOf fun x y hxy => ?_⟩
    obtain ⟨p, hp, rfl, q, hq, rfl, hy⟩ := (Located.dependsOn_iff hall).mp hxy
    exact (Plan.mem_needs hn).mpr
      ⟨p, getElem?_idxOf_name hn hp, q, getElem?_idxOf_name hn hq, hy⟩
  · rintro ⟨i, hi⟩
    refine ⟨_, hi.lift (fun i => (located[i]?.map (·.name)).getD "") fun j i hji => ?_⟩
    obtain ⟨p, hp, q, hq, hneed⟩ := (Plan.mem_needs hn).mp hji
    simp only [Function.onFun, hp, hq, Option.map_some, Option.getD_some]
    exact (Located.dependsOn_iff hall).mpr
      ⟨p, List.mem_of_getElem? hp, rfl, q, List.mem_of_getElem? hq, rfl, hneed⟩

/-! ## The verdict -/

theorem Manifest.Faulty.not_valid (h : m.Faulty depot loaded e) : ¬ m.Valid depot loaded := by
  intro hvalid
  cases h with
  | declaration hm _ hfail =>
      have hpass := Declaration.passes_iff.mpr ⟨hvalid.filled, hvalid.once, hvalid.fresh⟩
      exact (hpass _ _ _ hm).not_fails hfail
  | blueprint _ hm _ hlacks =>
      obtain ⟨b, hb⟩ := hvalid.provided _ (hm ▸ List.mem_append_right _ List.mem_cons_self)
      exact hb.not_lacks hlacks
  | dependency _ _ hm _ hd _ hnot =>
      refine hnot (hvalid.supplied _ (hm ▸ List.mem_append_right _ List.mem_cons_self) _ ?_)
      exact hd ▸ List.mem_append_right _ List.mem_cons_self
  | circle _ _ _ hcircular => exact hvalid.acyclic hcircular

theorem Located.all_provided (hfound : List.Forall₂ (Located depot) ds located) :
    ∀ d ∈ ds, ∃ b, depot.Provides d b := by
  intro d hd
  obtain ⟨p, -, hdp⟩ := exists_of_forall₂ hfound.flip hd
  exact ⟨p.blueprint, hdp.provides⟩

theorem Located.supplied (hfound : List.Forall₂ (Located depot) m.modules located)
    (h : Plan.missing? (located.map (·.name)) loaded located = none) :
    ∀ d ∈ m.modules, ∀ x ∈ depot.asked d, m.Supplies loaded x := by
  intro d hd x hx
  obtain ⟨p, hp, hdp⟩ := exists_of_forall₂ hfound.flip hd
  rw [Manifest.Supplies, ← Located.names_eq hfound]
  exact Plan.missing?_eq_none h p hp x (hdp.mem_asked.mp hx)

theorem Plan.arrange_error
    (hpass : Stepwise (fun front c => c.Passes loaded (front.map (·.name))) m.modules)
    (hfound : List.Forall₂ (Located depot) m.modules located)
    (h : arrange loaded located = .error e) : m.Faulty depot loaded e := by
  have hnames := Located.names_eq hfound
  have hn : (located.map (·.name)).Nodup := hnames ▸ (Declaration.passes_iff.mp hpass).2.1
  simp only [arrange] at h
  cases hm : missing? (located.map (·.name)) loaded located with
  | some f =>
      simp only [hm, Except.error.injEq] at h
      obtain ⟨before, d, after, front, x, back, hd, hfirst, hx, hfront, hnot, rfl⟩ :=
        missing?_eq_some hfound hm
      rw [hnames] at hfirst hfront hnot
      exact h ▸ .dependency hpass (Located.all_provided hfound) hd hfirst hx hfront hnot
  | none =>
      simp only [hm] at h
      cases hr : Order.resolve (located.map (needs (located.map (·.name)))) with
      | ok order => simp [hr] at h
      | error cycle =>
          simp only [hr, Except.error.injEq] at h
          have hposed := wellPosed hn (Located.all_once hfound)
          have hcyclic := (Order.resolve_error_iff hposed).mp ⟨cycle, hr⟩
          exact h ▸ .circle hpass (Located.all_provided hfound) (Located.supplied hfound hm)
            ((Located.circular_iff hfound hn).mpr hcyclic)

theorem Plan.arrange_valid
    (hpass : Stepwise (fun front c => c.Passes loaded (front.map (·.name))) m.modules)
    (hfound : List.Forall₂ (Located depot) m.modules located)
    (h : arrange loaded located = .ok plan) : m.Valid depot loaded := by
  obtain ⟨hfilled, honce, hfresh⟩ := Declaration.passes_iff.mp hpass
  have hn : (located.map (·.name)).Nodup := Located.names_eq hfound ▸ honce
  simp only [arrange] at h
  cases hm : missing? (located.map (·.name)) loaded located with
  | some f => simp [hm] at h
  | none =>
      refine ⟨hfilled, honce, hfresh, Located.all_provided hfound, Located.supplied hfound hm, ?_⟩
      intro hcircular
      have hposed := wellPosed hn (Located.all_once hfound)
      obtain ⟨cycle, hr⟩ := (Order.resolve_error_iff hposed).mpr
        ((Located.circular_iff hfound hn).mp hcircular)
      simp [hm, hr] at h

/-- A plan has the modules that are declared. -/
theorem Plan.make_names (h : (Plan.make depot loaded m).result = .ok plan) :
    (plan.map (·.name)).Perm m.names := by
  obtain ⟨hn, -, located, hfound, harrange⟩ := make_ok h
  have hnames : located.map (·.name) = m.names := Located.names_eq hfound
  have hnodup : (located.map (·.name)).Nodup := hnames ▸ hn
  obtain ⟨⟨order, hleast⟩, -⟩ := arrange_ok hnodup (Located.all_once hfound) harrange
  rw [← hnames]
  exact hleast.perm.map _

/-- A manifest is valid and can be planned, or has a fault and cannot. -/
theorem Plan.make_cases :
    (∃ plan, (Plan.make depot loaded m).result = .ok plan ∧ m.Valid depot loaded) ∨
      ∃ e, (Plan.make depot loaded m).result = .error e ∧ m.Faulty depot loaded e := by
  rw [make]
  cases hf : fault? loaded [] m.modules with
  | some f =>
      obtain ⟨before, d, after, hm, hfirst, hd⟩ := fault?_eq_some hf
      exact .inr ⟨f, rfl, .declaration hm hfirst hd⟩
  | none =>
      have hpass := passes_of_fault? hf
      cases hl : (locateAll depot m.modules).result with
      | error f =>
          obtain ⟨before, d, after, hm, hfirst, hd⟩ := locateAll_error hl
          exact .inr ⟨f, by simp [hl, Except.bind], .blueprint hpass hm hfirst hd⟩
      | ok located =>
          have hfound := locateAll_ok hl
          cases ha : arrange loaded located with
          | error f => exact .inr ⟨f, by simp [hl, ha, Except.bind], arrange_error hpass hfound ha⟩
          | ok plan => exact .inl ⟨plan, by simp [hl, ha, Except.bind], arrange_valid hpass hfound ha⟩

/-- Exactly the valid manifests can be planned, and the error for any other names its first
fault. -/
theorem Plan.make_verdict : ((∃ plan, (Plan.make depot loaded m).result = .ok plan) ↔
      m.Valid depot loaded) ∧
    ∀ e, (Plan.make depot loaded m).result = .error e → m.Faulty depot loaded e := by
  rcases @make_cases depot loaded m with
    ⟨plan, hplan, hvalid⟩ | ⟨f, herror, hfaulty⟩
  · exact ⟨⟨fun _ => hvalid, fun _ => ⟨plan, hplan⟩⟩, fun e he => by simp [hplan] at he⟩
  · refine ⟨⟨?_, fun hvalid => absurd hvalid hfaulty.not_valid⟩, fun e he => ?_⟩
    · rintro ⟨plan, hplan⟩
      simp [herror] at hplan
    · exact Except.error.inj (herror.symm.trans he) ▸ hfaulty

/-- Of two modules the second asks for a generator, which is not to be had here. -/
def scarce : Depot :=
  { builtin := .ofList "core"
      [{ name := "chat", construction := .panicked none },
        { name := "filter", dependencies := ["prng"], construction := .panicked none }] }

/-- The first is declared to depend on itself. -/
def circling : Manifest := ⟨[{ name := "chat", dependsOn := ["chat"] }, { name := "filter" }]⟩

/-- A dependency that is missing counts before a circle in front of it.  The circle counts when there
is nothing else, and without it the modules can be planned. -/
theorem make_verdict_circling :
    circling.Faulty scarce [] (.missingDependency "filter" "prng") ∧
    (∃ names, circling.Faulty scarce ["prng"] (.cycle names)) ∧
    Manifest.Valid ⟨[{ name := "chat" }, { name := "filter" }]⟩ scarce ["prng"] :=
  ⟨Plan.make_verdict.2 _ rfl, ⟨_, Plan.make_verdict.2 _ rfl⟩, Plan.make_verdict.1.mp ⟨_, rfl⟩⟩

end Backplane
