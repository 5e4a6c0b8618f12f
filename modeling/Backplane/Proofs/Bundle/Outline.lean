import Backplane.Bundle.Depot
import Backplane.Proofs.Keyed
/-!
# `Backplane.Proofs.Bundle.Outline`: modules but for how their hooks end

The outline of a module has the same hooks, which do the same and go on in the same way after each
reply, but end otherwise.

| hook | how it ends in outline |
| :-- | :-- |
| on loading | well if it ends well, and else with the error that `g` makes of its own |
| any other | well |

So modules with the same outline differ only in how their hooks end; those on loading end well or
fail alike, and if `g` is the identity they fail with the same error, whether they say so or break
off.  A bundle, a unit and a depot are outlined module by module, and whatever is found in them is
found in their outlines.

The modules are those of a `ModuleFactory`, and `load` is the hook on loading.
-/
namespace Backplane

variable {g : ModuleError → ModuleError}

/-! ## Hooks -/

/-- The behaviour with other endings. -/
def Behaviour.mapEnding (f : Ending → Ending) : Behaviour → Behaviour
  | .finish ending => .finish (f ending)
  | .mention action reply next => .mention action reply (next.mapEnding f)
  | .perform action next => .perform action fun reply => (next reply).mapEnding f
  | .carryOut deed next => .carryOut deed fun reply => (next reply).mapEnding f

/-- What a hook fails with in outline. -/
def Hook.outlineFailure (g : ModuleError → ModuleError) : Hook → Option ModuleError → Option ModuleError
  | .load, failure => failure.map g
  | _, _ => none

/-- How a hook ends in outline. -/
def Hook.outlineEnding (g : ModuleError → ModuleError) (hook : Hook) (ending : Ending) : Ending :=
  match hook.outlineFailure g ending.failure? with
  | none => .ok
  | some e => .failed e

theorem Hook.failure?_outlineEnding {hook : Hook} {ending : Ending} :
    (hook.outlineEnding g ending).failure? = hook.outlineFailure g ending.failure? := by
  rw [outlineEnding]
  cases hook.outlineFailure g ending.failure? <;> rfl

def Hooks.outline (g : ModuleError → ModuleError) (h : Hooks) : Hooks where
  load := h.load.mapEnding (Hook.load.outlineEnding g)
  postLoad := h.postLoad.mapEnding (Hook.postLoad.outlineEnding g)
  preUnload := h.preUnload.mapEnding (Hook.preUnload.outlineEnding g)
  unload := h.unload.mapEnding (Hook.unload.outlineEnding g)

theorem Hooks.of_outline {h : Hooks} {hook : Hook} :
    (h.outline g).of hook = (h.of hook).mapEnding (hook.outlineEnding g) := by
  cases hook <;> rfl

/-! ## Modules -/

def Instance.outline (g : ModuleError → ModuleError) (x : Instance) : Instance :=
  { x with hooks := x.hooks.outline g }

def Construction.outline (g : ModuleError → ModuleError) (c : Construction) : Construction :=
  match c.result with
  | .ok x => .built (x.outline g)
  | .error e => .failed (g e)

theorem Construction.result_outline {c : Construction} :
    (c.outline g).result = (c.result.map (Instance.outline g)).mapError g := by
  rw [outline]
  cases c.result <;> rfl

def Blueprint.outline (g : ModuleError → ModuleError) (b : Blueprint) : Blueprint :=
  { b with construction := b.construction.outline g }

def Bundle.outline (g : ModuleError → ModuleError) (b : Bundle) : Bundle :=
  { b with blueprints := b.blueprints.map (Blueprint.outline g) }

theorem Bundle.find?_outline {b : Bundle} {name : String} :
    (b.outline g).find? name = (b.find? name).map (Blueprint.outline g) :=
  List.find?_map

def ResolvedUnit.outline (g : ModuleError → ModuleError) (u : ResolvedUnit) : ResolvedUnit :=
  { u with bundle := u.bundle.outline g }

theorem ResolvedUnit.blueprint_outline {u : ResolvedUnit} {module : String} :
    (u.outline g).blueprint module = (u.blueprint module).map (Blueprint.outline g) := by
  have hfound : (u.outline g).bundle.find? module = _ := Bundle.find?_outline
  rw [blueprint, hfound, blueprint]
  cases u.bundle.find? module <;> rfl

/-! ## Depots -/

namespace Depot

/-- A depot in outline.  What is in the libraries does not lie on the shelf then: whatever opens a
library has it. -/
def outline (g : ModuleError → ModuleError) (d : Depot) : Depot where
  builtin := d.builtin.outline g
  shelf := { folder := d.shelf.folder }
  opener := fun s path =>
    (d.opener { s with libraries := d.shelf.libraries } path).map (Bundle.outline g)
  folder := d.folder
  opened := d.opened.map fun x => (x.1, x.2.outline g)

variable {d : Depot} {reference : Option String}

theorem describe_outline : (d.outline g).describe = d.describe := by
  simp [describe, outline]

theorem withFile_outline {path : String} {content : ByteArray} :
    (d.withFile path content).outline g = (d.outline g).withFile path content :=
  rfl

/-- In the outline of a depot a reference leads to the outline of what it leads to, and the same
becomes of the depot. -/
theorem resolve_outline : (d.outline g).resolve reference =
    ((d.resolve reference).1.map (ResolvedUnit.outline g), (d.resolve reference).2.outline g) := by
  cases reference with
  | none => rfl
  | some r =>
      have hopened : Keyed.get? (d.outline g).opened r =
          (Keyed.get? d.opened r).map (ResolvedUnit.outline g) := Keyed.get?_map
      have hload : ∀ path, (d.outline g).load path = (d.load path).map (Bundle.outline g) :=
        fun _ => rfl
      have hfolder : (d.outline g).folder = d.folder := rfl
      have hcount : (d.outline g).opened.length = d.opened.length := List.length_map _
      by_cases hbuiltin : r = builtinName
      · simp only [resolve, find, hbuiltin, if_true]
        rfl
      · cases hknown : Keyed.get? d.opened r with
        | some u =>
            simp only [resolve, find, if_neg hbuiltin, hopened, hknown, Option.map_some]
            rfl
        | none =>
            simp only [resolve, find, if_neg hbuiltin, hopened, hknown, Option.map_none, hload, hfolder,
              hcount]
            cases d.load (Reference.locate d.folder r) with
            | error fault => rfl
            | ok b => simp [outline, Except.map, ResolvedUnit.outline]

end Depot

end Backplane
