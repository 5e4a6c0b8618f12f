import Backplane.Contract.WordFilter
import Backplane.Proofs.Contract.Pieces
import Mathlib.Data.String.Basic
/-!
# `Backplane.Proofs.Contract.WordFilter`: what is masked and what stays

To go through a text is to find its pieces.  At any time what has gone out is what pieces become
that do not end in a run, and what follows them up to here are the letters and numbers of a word,
which begins at the place that has been kept (`Scan.Upto`).

    piece            in its place afterwards        cut again
    listed run       a star for each character      as many gaps
    any other run    the same                       the same run
    gap              the same                       the same gap

A star is neither letter nor number, so masking joins nothing and splits nothing.  What there is to
be found when a masked text is filtered again is what was not listed the first time.

This is `filter` of the `WordListFilter`.
-/
namespace Backplane

open Piece (join cut Fit fit_cut join_cut ofWord)

variable {text before word after cs rest : List Char} {c : Char} {i : Nat}

theorem isAlphanumeric_star : isAlphanumeric '*' = false := by decide

/-- Whether a run is some listed word, but for the case of letters. -/
def Offends (words : List String) (word : List Char) : Prop :=
  ∃ w ∈ words, lowercase w.toList = lowercase word

/-- Whether a place lies in a maximal run that is a listed word. -/
def Struck (words : List String) (text : List Char) (i : Nat) : Prop :=
  ∃ before word after, MaximalRun text before word after ∧ Offends words word ∧
    before.length ≤ i ∧ i < before.length + word.length

namespace WordFilter

variable {f : WordFilter} {p : Piece} {ps : List Piece} {words : List String} {s : Scan}
  {t : String}

/-! ## Places -/

/-- The place behind some characters. -/
def behind (cs : List Char) : String.Pos.Raw := ⟨String.utf8Len cs⟩

theorem behind_concat : behind cs + c = behind (cs ++ [c]) := by
  simp [behind, String.Pos.Raw.ext_iff]

theorem behind_toList : behind t.toList = t.rawEndPos :=
  congrArg String.Pos.Raw.mk (String.utf8Len_toList t)

/-- What a text contains between the places where a word begins and ends is the word. -/
theorem extract_word (ht : t.toList = before ++ word ++ rest) :
    String.Pos.Raw.extract t (behind before) (behind (before ++ word)) = String.ofList word := by
  rw [← String.ofList_toList (s := t), ht, behind, behind, String.utf8Len_append]
  exact String.extract_of_valid before word rest

/-! ## Going through a text -/

/-- Whether a piece has to be masked. -/
def masks (f : WordFilter) : Piece → Bool
  | .run cs => f.lists cs
  | .gap _ => false

/-- What becomes of a piece. -/
def render (f : WordFilter) (p : Piece) : List Char :=
  if f.masks p then p.chars.map fun _ => '*' else p.chars

/-- What becomes of a text, piece by piece. -/
def apply (f : WordFilter) (text : List Char) : Bool × List Char :=
  let pieces := cut text
  (pieces.any f.masks, pieces.flatMap f.render)

namespace Scan

/-- Whether pieces have gone out as they should. -/
structure Holds (f : WordFilter) (ps : List Piece) (s : Scan) : Prop where
  fit : Fit ps
  out : s.out = String.ofList (ps.flatMap f.render)
  replaced : s.replaced = ps.any f.masks

/-- Whether a text has been gone through up to the end of a word that follows pieces. -/
structure Upto (f : WordFilter) (ps : List Piece) (word : List Char) (s : Scan) : Prop
    extends Holds f ps s where
  ends : ∀ q ∈ ps.getLast?, q.isRun = false
  letters : ∀ c ∈ word, isAlphanumeric c = true
  start : s.start = if word = [] then none else some (behind (join ps))

theorem upto_empty : Upto f [] [] {} where
  fit := Piece.fit_nil
  out := rfl
  replaced := rfl
  ends := by simp
  letters := by simp
  start := rfl

end Scan

/-- A word that goes out is a piece that does. -/
theorem pushWord_ofList {out : List Char} : f.pushWord (String.ofList out) (String.ofList cs) =
    (f.masks (.run cs), String.ofList (out ++ f.render (.run cs))) := by
  rw [pushWord, render, String.toList_ofList, masks, String.ofList_append]
  cases f.lists cs with
  | true => simp [Piece.chars]
  | false => rfl

/-- Whoever ends a word puts it with the pieces. -/
theorem close_holds (h : s.Upto f ps word) (ht : t.toList = join ps ++ word ++ rest) :
    (f.close t (behind (join ps ++ word)) s).Holds f (ps ++ ofWord word) ∧
      (f.close t (behind (join ps ++ word)) s).start = none := by
  have hfit : Fit (ps ++ ofWord word) := h.fit.append_ofWord h.ends h.letters
  by_cases hword : word = []
  · have hstart : s.start = none := h.start.trans (if_pos hword)
    rw [close, hstart, hword, Piece.ofWord_nil, List.append_nil]
    exact ⟨h.toHolds, hstart⟩
  · have hstart : s.start = some (behind (join ps)) := h.start.trans (if_neg hword)
    rw [Piece.ofWord_of_ne hword] at hfit ⊢
    rw [close, hstart]
    simp only [extract_word ht, h.out, pushWord_ofList]
    exact ⟨⟨hfit, by simp, by simp [h.replaced]⟩, trivial⟩

/-- Every character leads on: a letter or number belongs to the word, and anything else ends it. -/
theorem visit_upto (h : s.Upto f ps word) (ht : t.toList = join ps ++ word ++ c :: rest) :
    ∃ ps' word', (f.visit t s (behind (join ps ++ word), c)).Upto f ps' word' ∧
      join ps' ++ word' = join ps ++ word ++ [c] := by
  cases hc : isAlphanumeric c with
  | true =>
      refine ⟨ps, word ++ [c], ?_, (List.append_assoc ..).symm⟩
      have hletters : ∀ d ∈ word ++ [c], isAlphanumeric d = true :=
        List.forall_mem_append.mpr ⟨h.letters, List.forall_mem_singleton.mpr hc⟩
      have hbegun : ¬ word ++ [c] = [] := by simp
      rw [visit, if_pos hc]
      by_cases hword : word = []
      · have hstart : s.start = none := h.start.trans (if_pos hword)
        rw [hstart]
        refine ⟨⟨h.fit, h.out, h.replaced⟩, h.ends, hletters, ?_⟩
        rw [if_neg hbegun, hword, List.append_nil]
      · have hstart : s.start = some (behind (join ps)) := h.start.trans (if_neg hword)
        rw [hstart]
        exact ⟨h.toHolds, h.ends, hletters, by rw [if_neg hbegun, hstart]⟩
  | false =>
      obtain ⟨⟨hfit, hout, hreplaced⟩, hstart⟩ := close_holds h ht
      refine ⟨ps ++ ofWord word ++ [.gap c], [], ?_, ?_⟩
      · rw [visit, hc, if_neg Bool.false_ne_true]
        refine ⟨⟨hfit.append_gap hc, ?_, ?_⟩, by simp [Piece.isRun], by simp, hstart⟩
        · rw [List.flatMap_append, String.ofList_append, ← hout]
          rfl
        · rw [List.any_append, ← hreplaced]
          exact (Bool.or_false _).symm
      · rw [List.append_nil, Piece.join_append, Piece.join_append_ofWord]
        rfl

/-- However far one goes, all that has been gone through are pieces and a word. -/
theorem scan_upto (h : s.Upto f ps word) (ht : t.toList = join ps ++ word ++ rest) :
    ∃ ps' word', ((places (behind (join ps ++ word)) rest).foldl (f.visit t) s).Upto f
        ps' word' ∧ join ps' ++ word' = t.toList := by
  induction rest generalizing s ps word with
  | nil => exact ⟨ps, word, h, by rw [ht, List.append_nil]⟩
  | cons c rest ih =>
      obtain ⟨ps', word', h', hsame⟩ := visit_upto h ht
      have ht' : t.toList = join ps' ++ word' ++ rest := by
        rw [hsame, ht, List.append_assoc _ [c], List.singleton_append]
      rw [places, List.foldl_cons, behind_concat, ← hsame]
      exact ih h' ht'

/-- Whoever has gone through a text has found its pieces. -/
theorem scan_holds (f : WordFilter) (t : String) : (f.scan t).Holds f (cut t.toList) := by
  obtain ⟨ps, word, h, hall⟩ := scan_upto (f := f) (t := t) Scan.upto_empty rfl
  have hend : t.toList = join ps ++ word ++ [] := by rw [hall, List.append_nil]
  obtain ⟨hholds, -⟩ := close_holds h hend
  have hpieces : cut t.toList = ps ++ ofWord word := by
    rw [← hall, ← Piece.join_append_ofWord, Piece.cut_join hholds.fit]
  rw [hall, behind_toList] at hholds
  rw [hpieces]
  exact hholds

/-! ## Filtering -/

theorem lists_ofWords : (ofWords words).lists word = true ↔ Offends words word := by
  rw [lists, ofWords, List.contains_iff_mem, List.mem_map]
  rfl

theorem masks_iff : f.masks p = true ↔ ∃ cs, p = .run cs ∧ f.lists cs = true := by
  cases p <;> simp [masks]

@[simp] theorem length_render : (f.render p).length = p.chars.length := by
  rw [render]
  split <;> simp

theorem length_flatMap_render : (ps.flatMap f.render).length = (join ps).length := by
  simp [join, List.length_flatMap]

/-- A character is masked if the piece that it stands in is. -/
theorem getElem?_apply {ps₁ ps₂ : List Piece} (hps : cut text = ps₁ ++ p :: ps₂)
    (hle : (join ps₁).length ≤ i) (hlt : i < (join ps₁).length + p.chars.length) :
    (f.apply text).2[i]? = if f.masks p then some '*' else text[i]? := by
  have htext : text = join ps₁ ++ (p.chars ++ join ps₂) := by
    rw [← Piece.join_cons, ← Piece.join_append, ← hps, join_cut]
  have hmasked : (f.apply text).2 =
      ps₁.flatMap f.render ++ (f.render p ++ ps₂.flatMap f.render) := by
    rw [apply, hps, List.flatMap_append, List.flatMap_cons]
  have hinside : text[i]? = p.chars[i - (join ps₁).length]? := by
    rw [htext, List.getElem?_append_right hle, List.getElem?_append_left (by omega)]
  rw [hmasked, List.getElem?_append_right (by rwa [length_flatMap_render]), length_flatMap_render,
    List.getElem?_append_left (by rw [length_render]; omega), hinside, render]
  split
  · rw [List.getElem?_map, List.getElem?_eq_getElem (by omega)]
    rfl
  · rfl

theorem length_apply : (f.apply text).2.length = text.length := by
  rw [apply, length_flatMap_render, join_cut]

theorem apply_snd_of_not (h : (f.apply text).1 = false) : (f.apply text).2 = text := by
  have hnone : ∀ p ∈ cut text, f.masks p = false := by simpa [apply] using h
  have hsame : (cut text).flatMap f.render = join (cut text) :=
    List.flatMap_congr fun p hp => by simp [render, hnone p hp]
  rw [apply, hsame, join_cut]

/-- To filter a text is to do with each of its pieces what has to be done. -/
theorem applyTo_eq (f : WordFilter) (t : String) :
    f.applyTo t = ((f.apply t.toList).1, String.ofList (f.apply t.toList).2) := by
  obtain ⟨-, hout, hreplaced⟩ := scan_holds f t
  have htold : (f.scan t).replaced = (f.apply t.toList).1 := hreplaced
  rw [applyTo, htold]
  cases hmasked : (f.apply t.toList).1 with
  | true => exact Prod.ext rfl hout
  | false =>
      rw [apply_snd_of_not hmasked, String.ofList_toList]
      rfl

theorem applyTo_fst : (f.applyTo t).1 = (f.apply t.toList).1 := by rw [applyTo_eq]

theorem toList_applyTo : (f.applyTo t).2.toList = (f.apply t.toList).2 := by
  rw [applyTo_eq, String.toList_ofList]

/-- A place that is struck is in a run that is masked, and only such a place is. -/
theorem masks_iff_struck {ps₁ ps₂ : List Piece} (hps : cut text = ps₁ ++ p :: ps₂)
    (hle : (join ps₁).length ≤ i) (hlt : i < (join ps₁).length + p.chars.length) :
    (ofWords words).masks p = true ↔ Struck words text i := by
  constructor
  · intro hm
    obtain ⟨cs, rfl, hlists⟩ := masks_iff.mp hm
    exact ⟨_, cs, _, Piece.maximalRun_of_cut hps, lists_ofWords.mp hlists, hle, hlt⟩
  · rintro ⟨before, word, after, hrun, hoffends, hle', hlt'⟩
    cases p with
    | run cs =>
        have hmax : MaximalRun text (join ps₁) cs (join ps₂) := Piece.maximalRun_of_cut hps
        obtain rfl : cs = word := hmax.unique hrun hle hlt hle' hlt'
        exact lists_ofWords.mpr hoffends
    | gap c =>
        -- what stands between runs is in no run
        have hc : text[i]? = some c := by
          obtain rfl : i = (join ps₁).length := Nat.le_antisymm (Nat.le_of_lt_succ hlt) hle
          rw [← join_cut text, hps, Piece.join_append, List.getElem?_append_right (Nat.le_refl _),
            Nat.sub_self]
          rfl
        have hgap : isAlphanumeric c = false := (fit_cut text).sound (.gap c) (by simp [hps])
        simp [hrun.letter hle' hlt' hc] at hgap

theorem exists_piece (hi : i < text.length) : ∃ ps₁ p ps₂, cut text = ps₁ ++ p :: ps₂ ∧
    (join ps₁).length ≤ i ∧ i < (join ps₁).length + p.chars.length :=
  Piece.exists_piece_at (by rwa [join_cut])

theorem getElem?_of_struck (h : Struck words text i) :
    ((ofWords words).apply text).2[i]? = some '*' := by
  have hi : i < text.length := by
    obtain ⟨before, word, after, hword, -, -, hlt⟩ := h
    rw [hword.eq, List.append_assoc, List.length_append, List.length_append]
    omega
  obtain ⟨ps₁, p, ps₂, hps, hle, hlt⟩ := exists_piece hi
  rw [getElem?_apply hps hle hlt, if_pos ((masks_iff_struck hps hle hlt).mpr h)]

theorem getElem?_of_not_struck (h : ¬ Struck words text i) :
    ((ofWords words).apply text).2[i]? = text[i]? := by
  by_cases hi : i < text.length
  · obtain ⟨ps₁, p, ps₂, hps, hle, hlt⟩ := exists_piece hi
    rw [getElem?_apply hps hle hlt, if_neg fun hm => h ((masks_iff_struck hps hle hlt).mp hm)]
  · have hout : text.length ≤ i := Nat.le_of_not_lt hi
    rw [List.getElem?_eq_none hout, List.getElem?_eq_none (by rwa [length_apply])]

/-- A listed run does not stay as it is. -/
theorem apply_snd_ne (hword : MaximalRun text before word after) (ho : Offends words word) :
    ((ofWords words).apply text).2 ≠ text := by
  intro hsame
  have hpos : 0 < word.length := List.length_pos_iff.mpr hword.nonempty
  have hstar : text[before.length]? = some '*' := by
    conv_lhs => rw [← hsame]
    exact getElem?_of_struck ⟨before, word, after, hword, ho, Nat.le_refl _, by omega⟩
  have hletter := hword.letter (Nat.le_refl _) (by omega) hstar
  simp [isAlphanumeric_star] at hletter

/-- To mask anything there has to be a listed run, and then something is masked. -/
theorem apply_fst_iff : ((ofWords words).apply text).1 = true ↔
    ∃ before word after, MaximalRun text before word after ∧ Offends words word := by
  constructor
  · intro h
    obtain ⟨p, hp, hm⟩ := List.any_eq_true.mp h
    obtain ⟨cs, rfl, hlists⟩ := masks_iff.mp hm
    obtain ⟨ps₁, ps₂, hps⟩ := List.append_of_mem hp
    exact ⟨_, cs, _, Piece.maximalRun_of_cut hps, lists_ofWords.mp hlists⟩
  · rintro ⟨before, word, after, hword, ho⟩
    by_contra hnot
    exact apply_snd_ne hword ho (apply_snd_of_not (Bool.eq_false_iff.mpr hnot))

theorem apply_fst_iff_ne :
    ((ofWords words).apply text).1 = true ↔ ((ofWords words).apply text).2 ≠ text := by
  constructor
  · intro h
    obtain ⟨before, word, after, hword, ho⟩ := apply_fst_iff.mp h
    exact apply_snd_ne hword ho
  · intro hne
    by_contra hnot
    exact hne (apply_snd_of_not (Bool.eq_false_iff.mpr hnot))

/-- Whatever words are listed, a text keeps its length; a character becomes a star if it stands in a
maximal run of letters and numbers that is a listed word but for the case of letters, and stays what
it is if it does not; and the filter says that it has masked something if there is such a run, which
is just when the text has changed. -/
theorem masks_listed_runs (words : List String) (text : String) :
    ((ofWords words).applyTo text).2.length = text.length ∧
    (∀ i, Struck words text.toList i →
      ((ofWords words).applyTo text).2.toList[i]? = some '*') ∧
    (∀ i, ¬ Struck words text.toList i →
      ((ofWords words).applyTo text).2.toList[i]? = text.toList[i]?) ∧
    (((ofWords words).applyTo text).1 = true ↔
      ∃ before word after, MaximalRun text.toList before word after ∧ Offends words word) ∧
    (((ofWords words).applyTo text).1 = true ↔ ((ofWords words).applyTo text).2 ≠ text) := by
  refine ⟨?_, fun i hi => ?_, fun i hi => ?_, ?_, ?_⟩
  · rw [← String.length_toList, ← String.length_toList, toList_applyTo, length_apply]
  · rw [toList_applyTo, getElem?_of_struck hi]
  · rw [toList_applyTo, getElem?_of_not_struck hi]
  · rw [applyTo_fst, apply_fst_iff]
  · rw [applyTo_fst, apply_fst_iff_ne, ← toList_applyTo, ne_eq, String.toList_inj]

/-- A word is masked in any case of its letters, and not within another. -/
example : (ofWords ["heck"]).applyTo "Heck, what the heck? heckler" =
    (true, "****, what the ****? heckler") := by
  decide +kernel

/-! ## Filtering again -/

/-- The pieces of what becomes of a piece. -/
def remains (f : WordFilter) (p : Piece) : List Piece :=
  if f.masks p then p.chars.map fun _ => .gap '*' else [p]

theorem join_remains : join (f.remains p) = f.render p := by
  rw [remains, render]
  split
  · rw [join, List.flatMap_map, List.map_eq_flatMap]
    rfl
  · simp [join]

theorem fit_stars {α : Type} (xs : List α) (h : Fit ps) :
    Fit ((xs.map fun _ => .gap '*') ++ ps) := by
  induction xs with
  | nil => exact h
  | cons x xs ih =>
      exact Piece.fit_cons.mpr ⟨isAlphanumeric_star, by simp [Piece.MayMeet, Piece.isRun], ih⟩

/-- Masking makes gaps of runs, and no runs of anything, so what is left fits together. -/
theorem fit_remains (h : Fit ps) : Fit (ps.flatMap f.remains) := by
  induction ps with
  | nil => exact h
  | cons p ps ih =>
      obtain ⟨hsound, hmeet, hrest⟩ := Piece.fit_cons.mp h
      rw [List.flatMap_cons, remains]
      split
      · exact fit_stars _ (ih hrest)
      · refine Piece.fit_cons.mpr ⟨hsound, fun q hq hp => ?_, ih hrest⟩
        cases ps with
        | nil => simp at hq
        | cons x ps =>
            have hgap : x.isRun = false := hmeet x rfl hp
            cases x with
            | run cs => simp [Piece.isRun] at hgap
            | gap c =>
                obtain rfl : .gap c = q := by simpa [remains, masks] using hq
                rfl

theorem cut_apply : cut (f.apply text).2 = (cut text).flatMap f.remains := by
  have hpieces : (f.apply text).2 = join ((cut text).flatMap f.remains) := by
    rw [apply, join, List.flatMap_assoc]
    exact List.flatMap_congr fun p _ => join_remains.symm
  rw [hpieces, Piece.cut_join (fit_remains (fit_cut text))]

theorem masks_remains {q : Piece} (hq : q ∈ f.remains p) : f.masks q = false := by
  rw [remains] at hq
  split at hq
  · obtain ⟨c, -, rfl⟩ := List.mem_map.mp hq
    rfl
  · next hm =>
      rw [List.mem_singleton.mp hq]
      simpa using hm

/-- Whatever words are listed, a text that has been filtered is clean: to filter it again finds
nothing and leaves it as it is. -/
theorem applyTo_applyTo (f : WordFilter) (text : String) :
    f.applyTo (f.applyTo text).2 = (false, (f.applyTo text).2) := by
  have hclean : (f.apply (f.apply text.toList).2).1 = false := by
    rw [apply, List.any_eq_false, cut_apply]
    intro q hq
    obtain ⟨p, -, hq⟩ := List.mem_flatMap.mp hq
    simp [masks_remains hq]
  rw [applyTo_eq f (f.applyTo text).2, toList_applyTo, hclean, apply_snd_of_not hclean,
    ← toList_applyTo, String.ofList_toList]

end WordFilter

end Backplane
