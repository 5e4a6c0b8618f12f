import Backplane.Keyed
import Mathlib.Data.List.Nodup
/-!
# `Backplane.Proofs.Keyed`: a key and what it has

Taking a key out leaves the other pairs, and the key has nothing then; with distinct keys it is one
pair that goes.  Changing what a key has leaves the keys, and what the others have.

The `lists` of the `AdvisorRegistry` are kept so.
-/
namespace Backplane.Keyed

variable {κ ν : Type} [DecidableEq κ] {xs : List (κ × ν)} {k : κ} {v : ν}

theorem get?_eq_none_iff : get? xs k = none ↔ k ∉ xs.map (·.1) := by
  simp only [get?, Option.map_eq_none_iff, List.find?_eq_none, decide_eq_true_eq, List.mem_map,
    not_exists, not_and]

theorem mem_of_get? (h : get? xs k = some v) : (k, v) ∈ xs := by
  obtain ⟨x, hx, rfl⟩ := Option.map_eq_some_iff.mp h
  have hk : x.1 = k := by simpa using List.find?_some hx
  exact hk ▸ List.mem_of_find?_eq_some hx

theorem get?_append {ys : List (κ × ν)} : get? (xs ++ ys) k = (get? xs k).or (get? ys k) := by
  rw [get?, List.find?_append, get?, get?]
  cases xs.find? fun x => x.1 = k <;> rfl

theorem get?_map {μ : Type} {f : ν → μ} :
    get? (xs.map fun x => (x.1, f x.2)) k = (get? xs k).map f := by
  simp only [get?, List.find?_map, Option.map_map]
  rfl

theorem mem_erase {x : κ × ν} : x ∈ erase xs k ↔ x ∈ xs ∧ x.1 ≠ k := by
  simp [erase]

theorem get?_erase : get? (erase xs k) k = none := by
  rw [get?_eq_none_iff]
  intro hk
  obtain ⟨x, hx, hxk⟩ := List.mem_map.mp hk
  exact (mem_erase.mp hx).2 hxk

theorem erase_of_get? (h : get? xs k = none) : erase xs k = xs := by
  refine List.filter_eq_self.mpr fun x hx => ?_
  have hne : x.1 ≠ k := fun hk => get?_eq_none_iff.mp h (hk ▸ List.mem_map_of_mem hx)
  simpa using hne

theorem get?_of_mem (hnd : (xs.map (·.1)).Nodup) (h : (k, v) ∈ xs) : get? xs k = some v := by
  cases hv : get? xs k with
  | none => exact absurd (List.mem_map_of_mem h) (get?_eq_none_iff.mp hv)
  | some w => rw [(Prod.mk.inj (List.inj_on_of_nodup_map hnd (mem_of_get? hv) h rfl)).2]

/-- With distinct keys one pair goes when a key is taken out. -/
theorem perm_erase (hnd : (xs.map (·.1)).Nodup) (h : get? xs k = some v) :
    xs.Perm ((k, v) :: erase xs k) := by
  have hmem := mem_of_get? h
  have hout : (k, v) ∉ erase xs k := fun hin => (mem_erase.mp hin).2 rfl
  refine (List.perm_ext_iff_of_nodup (hnd.of_map _) ?_).mpr fun x => ?_
  · exact List.nodup_cons.mpr ⟨hout, (hnd.of_map _).filter _⟩
  · rw [List.mem_cons, mem_erase]
    constructor
    · intro hx
      by_cases hk : x.1 = k
      · exact Or.inl (List.inj_on_of_nodup_map hnd hx hmem hk)
      · exact Or.inr ⟨hx, hk⟩
    · rintro (rfl | ⟨hx, -⟩)
      · exact hmem
      · exact hx

section Modify

variable {f : ν → ν}

private theorem fst_changed (x : κ × ν) : (if x.1 = k then (x.1, f x.2) else x).1 = x.1 := by
  split <;> rfl

theorem keys_modify : (modify xs k f).map (·.1) = xs.map (·.1) := by
  simp only [modify, List.map_map, Function.comp_def, fst_changed]

theorem get?_modify : get? (modify xs k f) k = (get? xs k).map f := by
  simp only [get?, modify, List.find?_map, Function.comp_def, fst_changed]
  cases hx : xs.find? fun x => x.1 = k with
  | none => rfl
  | some x =>
      have hk : x.1 = k := by simpa using List.find?_some hx
      simp [hk]

theorem erase_modify : erase (modify xs k f) k = erase xs k := by
  simp only [erase, modify, List.filter_map, Function.comp_def, fst_changed]
  refine (List.map_congr_left fun x hx => ?_).trans (List.map_id _)
  have hne : x.1 ≠ k := by simpa using List.of_mem_filter hx
  exact if_neg hne

theorem perm_modify (hnd : (xs.map (·.1)).Nodup) (h : get? xs k = some v) :
    (modify xs k f).Perm ((k, f v) :: erase xs k) := by
  have hnd' : ((modify xs k f).map (·.1)).Nodup := by rwa [keys_modify]
  have hget : get? (modify xs k f) k = some (f v) := by rw [get?_modify, h, Option.map_some]
  rw [← erase_modify (f := f)]
  exact perm_erase hnd' hget

theorem modify_of_get? (h : get? xs k = none) : modify xs k f = xs := by
  refine (List.map_congr_left fun x hx => ?_).trans (List.map_id _)
  have hne : x.1 ≠ k := fun hk => get?_eq_none_iff.mp h (hk ▸ List.mem_map_of_mem hx)
  exact if_neg hne

/-- With distinct keys a key is changed by changing the one value that it has. -/
theorem modify_of_nodup (hnd : (xs.map (·.1)).Nodup) (h : get? xs k = some v) :
    modify xs k f = modify xs k fun _ => f v := by
  refine List.map_congr_left fun x hx => ?_
  split
  · next hk => rw [List.inj_on_of_nodup_map hnd hx (mem_of_get? h) hk]
  · rfl

end Modify

theorem nodup_erase (hnd : (xs.map (·.1)).Nodup) : ((erase xs k).map (·.1)).Nodup :=
  (List.filter_sublist.map _).nodup hnd

end Backplane.Keyed
