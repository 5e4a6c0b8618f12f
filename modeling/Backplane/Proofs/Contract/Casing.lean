import Backplane.Proofs.Contract.WordFilter
/-!
# `Backplane.Proofs.Contract.Casing`: a word by itself, in any case

A listed word is found in whatever case it is written, whatever stands around it, as long as what
stands there is neither letter nor number and what is written is a word, that is one run of letters
and numbers.  Lower-casing does not see to that: it takes a list as it is, and a text run by run.

    listed        written       lower case of both    runs of what is written
    heck          HeCk          heck                  HeCk
    semi-colon    Semi-Colon    semi-colon            Semi, Colon
    İ             i̇             i̇                     i

This is `filter` of the `WordListFilter`.
-/
namespace Backplane

open Piece (cut)

variable {text cs : List Char}

theorem lowercase_eq_nil : lowercase cs = [] ↔ cs = [] := by
  constructor
  · intro h
    cases cs with
    | nil => rfl
    | cons c cs =>
        have hhere := (List.append_eq_nil_iff.mp h).1
        split at hhere
        · simp at hhere
        · rw [lowerChar] at hhere
          split at hhere <;> simp at hhere
  · rintro rfl
    rfl

/-- What is neither letter nor number is cut off one by one. -/
theorem Piece.cut_gaps (hcs : ∀ c ∈ cs, isAlphanumeric c = false) (text : List Char) :
    cut (cs ++ text) = cs.map gap ++ cut text := by
  induction cs with
  | nil => rfl
  | cons c cs ih =>
      obtain ⟨hc, hcs⟩ := List.forall_mem_cons.mp hcs
      rw [List.cons_append, cut, hc, if_neg Bool.false_ne_true, ih hcs]
      rfl

/-- A run between what is neither letter nor number is a piece of its own. -/
theorem Piece.cut_alone {before word after : List Char} (hne : word ≠ [])
    (hword : ∀ c ∈ word, isAlphanumeric c = true) (hbefore : ∀ c ∈ before, isAlphanumeric c = false)
    (hafter : ∀ c ∈ after, isAlphanumeric c = false) :
    cut (before ++ (word ++ after)) = before.map gap ++ run word :: after.map gap := by
  have hgaps : cut after = after.map gap := by
    have h := cut_gaps hafter []
    rwa [List.append_nil, cut, List.append_nil] at h
  have hmeet : ∀ q ∈ (cut after).head?, (run word).MayMeet q := by
    intro q hq _
    rw [hgaps, List.head?_map] at hq
    obtain ⟨c, -, rfl⟩ := Option.map_eq_some_iff.mp hq
    rfl
  rw [cut_gaps hbefore, cut_run hne hword hmeet, hgaps]

namespace WordFilter

variable {words : List String} {w v before after : String} {f : WordFilter} {i : Nat} {c : Char}

theorem any_masks_gaps (f : WordFilter) (cs : List Char) : (cs.map Piece.gap).any f.masks = false := by
  simp [masks]

theorem flatMap_render_gaps (f : WordFilter) (cs : List Char) :
    (cs.map Piece.gap).flatMap f.render = cs := by
  simp [List.flatMap_map, render, masks, Piece.chars]

/-- A listed word that stands alone is masked, and nothing else. -/
theorem apply_alone {before word after : List Char} (hlists : f.lists word = true) (hne : word ≠ [])
    (hword : ∀ c ∈ word, isAlphanumeric c = true) (hbefore : ∀ c ∈ before, isAlphanumeric c = false)
    (hafter : ∀ c ∈ after, isAlphanumeric c = false) :
    f.apply (before ++ (word ++ after)) =
      (true, before ++ (List.replicate word.length '*' ++ after)) := by
  have hmasks : f.masks (.run word) = true := hlists
  have hstars : f.render (.run word) = List.replicate word.length '*' := by
    rw [render, if_pos hmasks, Piece.chars, List.map_const']
  rw [apply, Piece.cut_alone hne hword hbefore hafter]
  simp only [List.any_append, List.any_cons, any_masks_gaps, hmasks, List.flatMap_append,
    List.flatMap_cons, flatMap_render_gaps, hstars]
  rfl

/-- What is neither letter nor number stays. -/
theorem getElem?_apply_of_gap {text : List Char} (hc : text[i]? = some c)
    (hgap : isAlphanumeric c = false) : ((ofWords words).apply text).2[i]? = some c := by
  rw [getElem?_of_not_struck, hc]
  rintro ⟨before, word, after, hrun, -, hle, hlt⟩
  simp [hrun.letter hle hlt hc] at hgap

/-- Whatever words are listed, what is written like one of them but for the case of its letters, with
nothing around it that is letter or number, is masked if it consists of letters and numbers.  Whatever
else it has in it stays. -/
theorem masks_any_case (hw : w ∈ words) (hne : w ≠ "")
    (hcase : lowercase v.toList = lowercase w.toList)
    (hbefore : ∀ c ∈ before.toList, isAlphanumeric c = false)
    (hafter : ∀ c ∈ after.toList, isAlphanumeric c = false) :
    ((∀ c ∈ v.toList, isAlphanumeric c = true) →
      (ofWords words).applyTo (before ++ v ++ after) =
        (true, before ++ String.ofList (List.replicate v.length '*') ++ after)) ∧
    ∀ i c, v.toList[i]? = some c → isAlphanumeric c = false →
      ((ofWords words).applyTo (before ++ v ++ after)).2.toList[before.length + i]? = some c := by
  have htext : (before ++ v ++ after).toList = before.toList ++ (v.toList ++ after.toList) := by
    simp
  refine ⟨fun hv => ?_, fun i c hc hgap => ?_⟩
  · have hlists : (ofWords words).lists v.toList = true := lists_ofWords.mpr ⟨w, hw, hcase.symm⟩
    have hvne : v.toList ≠ [] := fun h => hne (by
      rwa [h, eq_comm, lowercase_eq_nil.mpr rfl, lowercase_eq_nil, String.toList_eq_nil_iff] at hcase)
    rw [applyTo_eq, htext, apply_alone hlists hvne hv hbefore hafter]
    simp [String.ofList_append, String.append_assoc, String.length_toList]
  · have hplace : (before ++ v ++ after).toList[before.length + i]? = some c := by
      have hlt : i < v.toList.length := (List.getElem?_eq_some_iff.mp hc).1
      rw [htext, ← String.length_toList, List.getElem?_append_right (Nat.le_add_right _ _),
        Nat.add_sub_cancel_left, List.getElem?_append_left hlt, hc]
    rw [toList_applyTo]
    exact getElem?_apply_of_gap hplace hgap

/-- A capital sigma that ends a word is the same as a final one, and a hyphen is not masked. -/
theorem masks_any_case_road :
    lowercase "οδος".toList = lowercase "ΟΔΟΣ".toList ∧
    (ofWords ["semi-colon", "ΟΔΟΣ"]).applyTo ("«" ++ "οδος" ++ "»") = (true, "«****»") ∧
    ((ofWords ["semi-colon", "ΟΔΟΣ"]).applyTo ("«" ++ "Semi-Colon" ++ "»")).2.toList[5]? =
      some '-' := by
  have hroad : "ΟΔΟΣ" ∈ ["semi-colon", "ΟΔΟΣ"] := by simp
  have hhyphen : "semi-colon" ∈ ["semi-colon", "ΟΔΟΣ"] := by simp
  have hcase : lowercase "οδος".toList = lowercase "ΟΔΟΣ".toList := by decide +kernel
  have hcase' : lowercase "Semi-Colon".toList = lowercase "semi-colon".toList := by decide +kernel
  have hquotes : isAlphanumeric '«' = false ∧ isAlphanumeric '»' = false := by decide +kernel
  have hletters : isAlphanumeric 'ο' = true ∧ isAlphanumeric 'δ' = true ∧
      isAlphanumeric 'ς' = true := by decide +kernel
  have hbefore : ∀ c ∈ "«".toList, isAlphanumeric c = false := by simpa using hquotes.1
  have hafter : ∀ c ∈ "»".toList, isAlphanumeric c = false := by simpa using hquotes.2
  obtain ⟨hmasked, -⟩ := masks_any_case hroad (by decide) hcase hbefore hafter
  obtain ⟨-, hstays⟩ := masks_any_case hhyphen (by decide) hcase' hbefore hafter
  exact ⟨hcase, hmasked (by simp [hletters]), hstays 4 '-' (by decide) (by decide +kernel)⟩

/-- Two words are listed, and what has the same lower-case form stands by itself, but is not found:
one has a hyphen, and the other is a letter whose lower-case form is a letter and a mark. -/
theorem phrase_unmasked :
    (lowercase "Semi-Colon".toList = lowercase "semi-colon".toList ∧
      (ofWords ["semi-colon"]).applyTo "Semi-Colon" = (false, "Semi-Colon")) ∧
    isAlphanumeric 'İ' = true ∧ lowercase "i\u0307".toList = lowercase "İ".toList ∧
      (ofWords ["İ"]).applyTo "i\u0307" = (false, "i\u0307") := by
  decide +kernel

end WordFilter

end Backplane
