import Backplane.Plan.Basic
import Backplane.Proofs.Bundle.Outline
/-!
# `Backplane.Proofs.Plan.Outline`: plans of modules in outline

Planning goes by names and needs, and never by what a module does.  So against the outline of a
depot a manifest has the outline of its plan, in the same order, or the same fault.

Planning is `plan_config`.
-/
namespace Backplane

variable {g : ModuleError → ModuleError}

def PlannedModule.outline (g : ModuleError → ModuleError) (p : PlannedModule) : PlannedModule :=
  { p with unit := p.unit.outline g, blueprint := p.blueprint.outline g }

namespace Plan

variable {d : Depot} {loaded : List String}

/-- An outcome in outline, whatever was reported. -/
structure Outlines {α : Type} (g : ModuleError → ModuleError) (f : α → α) (x x' : Outcome α) :
    Prop where
  result : x'.result = x.result.map f
  depot : x'.depot = x.depot.outline g

theorem locate_outline {x : Declaration} :
    Outlines g (PlannedModule.outline g) (locate d x) (locate (d.outline g) x) := by
  constructor
  · simp only [locate, Depot.resolve_outline]
    cases (d.resolve x.unit).1 with
    | error e => rfl
    | ok u =>
        simp only [Except.map, Except.bind, ResolvedUnit.blueprint_outline]
        cases u.blueprint x.name <;> rfl
  · simp only [locate, Depot.resolve_outline]

theorem locateAll_outline (xs : List Declaration) :
    Outlines g (List.map (PlannedModule.outline g)) (locateAll d xs) (locateAll (d.outline g) xs) := by
  induction xs generalizing d with
  | nil => exact ⟨rfl, rfl⟩
  | cons x xs ih =>
      obtain ⟨hresult, hdepot⟩ := locate_outline (g := g) (d := d) (x := x)
      simp only [locateAll, hresult, hdepot]
      cases (locate d x).result with
      | error e => exact ⟨rfl, rfl⟩
      | ok p =>
          obtain ⟨hmore, hend⟩ := ih (d := (locate d x).depot)
          simp only [Except.map, hmore, hend]
          refine ⟨?_, rfl⟩
          cases (locateAll (locate d x).depot xs).result <;> rfl

theorem arrange_outline {ps : List PlannedModule} :
    arrange loaded (ps.map (PlannedModule.outline g)) =
      (arrange loaded ps).map (List.map (PlannedModule.outline g)) := by
  have hnames : (ps.map (PlannedModule.outline g)).map (·.name) = ps.map (·.name) := by
    rw [List.map_map]
    rfl
  have hneeds : ∀ names, (ps.map (PlannedModule.outline g)).map (needs names) = ps.map (needs names) := by
    intro names
    rw [List.map_map]
    rfl
  have hmissing : ∀ names, missing? names loaded (ps.map (PlannedModule.outline g)) =
      missing? names loaded ps := by
    intro names
    rw [missing?, List.findSome?_map]
    rfl
  simp only [arrange, hnames, hneeds, hmissing]
  cases missing? (ps.map (·.name)) loaded ps with
  | some e => rfl
  | none =>
      cases Order.resolve (ps.map (needs (ps.map (·.name)))) with
      | error cycle => rfl
      | ok order => simp only [Except.map, List.getElem?_map, List.map_filterMap]

theorem make_outline (loaded : List String) (m : Manifest) :
    Outlines g (List.map (PlannedModule.outline g)) (make d loaded m) (make (d.outline g) loaded m) := by
  unfold make
  cases fault? loaded [] m.modules with
  | some e => exact ⟨rfl, rfl⟩
  | none =>
      obtain ⟨hresult, hdepot⟩ := locateAll_outline (g := g) (d := d) m.modules
      refine ⟨?_, hdepot⟩
      simp only [hresult]
      cases (locateAll d m.modules).result with
      | error e => rfl
      | ok ps => exact arrange_outline

end Plan

end Backplane
