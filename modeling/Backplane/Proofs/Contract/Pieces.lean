import Backplane.Text.Alphanumeric
import Mathlib.Data.List.Chain
/-!
# `Backplane.Proofs.Contract.Pieces`: texts as pieces

Runs of letters and numbers, and the characters between them.  Pieces fit together if runs consist
of letters and numbers, gaps are anything else, and no two runs are neighbours.  A text is cut into
pieces that fit, and into no others (`cut_join`).  So a piece that is a run is a maximal run of the
text, and the only one around any of its characters.

The `WordListFilter` looks at the runs.
-/
namespace Backplane

variable {text before word after before' word' after' cs : List Char} {c : Char} {i : Nat}

/-! ## Maximal runs -/

/-- Whether a text consists of a maximal run of letters and numbers and what stands before and after
it. -/
structure MaximalRun (text before word after : List Char) : Prop where
  eq : text = before ++ word ++ after
  nonempty : word ≠ []
  letters : ∀ c ∈ word, isAlphanumeric c = true
  left : ∀ c ∈ before.getLast?, isAlphanumeric c = false
  right : ∀ c ∈ after.head?, isAlphanumeric c = false

namespace MaximalRun

theorem getElem? (h : MaximalRun text before word after) (hle : before.length ≤ i)
    (hlt : i < before.length + word.length) : text[i]? = word[i - before.length]? := by
  rw [h.eq, List.append_assoc, List.getElem?_append_right hle, List.getElem?_append_left (by omega)]

/-- Whatever stands within a run is a letter or a number. -/
theorem letter (h : MaximalRun text before word after) (hle : before.length ≤ i)
    (hlt : i < before.length + word.length) (hc : text[i]? = some c) : isAlphanumeric c = true := by
  rw [h.getElem? hle hlt] at hc
  exact h.letters c (List.mem_of_getElem? hc)

/-- Of two runs around one character the one does not begin before the other. -/
theorem length_le (h : MaximalRun text before word after)
    (h' : MaximalRun text before' word' after') (hlt : i < before.length + word.length)
    (hle' : before'.length ≤ i) : before'.length ≤ before.length := by
  by_contra hgt
  -- the last character before the one run lies within the other
  have hlast : text[before'.length - 1]? = before'.getLast? := by
    rw [h'.eq, List.append_assoc, List.getElem?_append_left (by omega), List.getLast?_eq_getElem?]
  obtain ⟨c, hc⟩ := Option.isSome_iff_exists.mp (List.getLast?_isSome.mpr
    (List.ne_nil_of_length_pos (by omega : 0 < before'.length)))
  have hletter : isAlphanumeric c = true :=
    h.letter (i := before'.length - 1) (by omega) (by omega) (hlast.trans hc)
  simp [h'.left c hc] at hletter

theorem eq_takeWhile (h : MaximalRun text before word after) :
    word = (text.drop before.length).takeWhile isAlphanumeric := by
  have hstop : after.takeWhile isAlphanumeric = [] := by
    cases after with
    | nil => rfl
    | cons c after => simp [h.right c rfl]
  rw [h.eq, List.append_assoc, List.drop_left, List.takeWhile_append_of_pos h.letters, hstop,
    List.append_nil]

/-- There is one run at most around a character. -/
theorem unique (h : MaximalRun text before word after) (h' : MaximalRun text before' word' after')
    (hle : before.length ≤ i) (hlt : i < before.length + word.length) (hle' : before'.length ≤ i)
    (hlt' : i < before'.length + word'.length) : word = word' := by
  have hlength : before.length = before'.length :=
    Nat.le_antisymm (h'.length_le h hlt' hle) (h.length_le h' hlt hle')
  rw [h.eq_takeWhile, h'.eq_takeWhile, hlength]

end MaximalRun

/-! ## Pieces -/

inductive Piece
  /-- A maximal run of letters and numbers. -/
  | run (cs : List Char)
  /-- A character that is neither letter nor number. -/
  | gap (c : Char)
deriving DecidableEq, Repr

namespace Piece

def chars : Piece → List Char
  | run cs => cs
  | gap c => [c]

variable {p q : Piece} {ps qs : List Piece}

/-- Whether a piece is what it is said to be. -/
def IsSound : Piece → Prop
  | run cs => cs ≠ [] ∧ ∀ c ∈ cs, isAlphanumeric c = true
  | gap c => isAlphanumeric c = false

def isRun : Piece → Bool
  | run _ => true
  | gap _ => false

/-- Whether two pieces may be neighbours. -/
def MayMeet (p q : Piece) : Prop := p.isRun = true → q.isRun = false

/-- Whether pieces fit together. -/
structure Fit (ps : List Piece) : Prop where
  sound : ∀ p ∈ ps, p.IsSound
  meet : ps.IsChain MayMeet

/-- The text that consists of pieces. -/
def join (ps : List Piece) : List Char := ps.flatMap chars

theorem join_append : join (ps ++ qs) = join ps ++ join qs := List.flatMap_append

theorem join_cons : join (p :: ps) = p.chars ++ join ps := rfl

theorem fit_nil : Fit [] := ⟨by simp, .nil⟩

theorem fit_cons : Fit (p :: ps) ↔ p.IsSound ∧ (∀ q ∈ ps.head?, p.MayMeet q) ∧ Fit ps := by
  constructor
  · intro h
    obtain ⟨hsound, hrest⟩ := List.forall_mem_cons.mp h.sound
    obtain ⟨hmeet, hchain⟩ := List.isChain_cons.mp h.meet
    exact ⟨hsound, hmeet, hrest, hchain⟩
  · rintro ⟨hsound, hmeet, hrest⟩
    exact ⟨List.forall_mem_cons.mpr ⟨hsound, hrest.sound⟩,
      List.isChain_cons.mpr ⟨hmeet, hrest.meet⟩⟩

theorem fit_append : Fit (ps ++ qs) ↔
    Fit ps ∧ Fit qs ∧ ∀ p ∈ ps.getLast?, ∀ q ∈ qs.head?, p.MayMeet q := by
  constructor
  · intro h
    obtain ⟨hps, hqs⟩ := List.forall_mem_append.mp h.sound
    obtain ⟨hmeet, hmeet', hborder⟩ := List.isChain_append.mp h.meet
    exact ⟨⟨hps, hmeet⟩, ⟨hqs, hmeet'⟩, hborder⟩
  · rintro ⟨hps, hqs, hborder⟩
    exact ⟨List.forall_mem_append.mpr ⟨hps.sound, hqs.sound⟩,
      List.isChain_append.mpr ⟨hps.meet, hqs.meet, hborder⟩⟩

/-! ## From left to right -/

/-- The piece that a word makes, if the word has begun. -/
def ofWord (cs : List Char) : List Piece := if cs = [] then [] else [run cs]

@[simp] theorem ofWord_nil : ofWord [] = [] := rfl

theorem ofWord_of_ne (h : cs ≠ []) : ofWord cs = [run cs] := if_neg h

theorem join_append_ofWord : join (ps ++ ofWord cs) = join ps ++ cs := by
  rw [join_append]
  by_cases h : cs = []
  · rw [h]
    rfl
  · rw [ofWord_of_ne h]
    simp [join, chars]

/-- A word fits behind pieces that do not end in a run. -/
theorem Fit.append_ofWord (h : Fit ps) (hends : ∀ q ∈ ps.getLast?, q.isRun = false)
    (hcs : ∀ c ∈ cs, isAlphanumeric c = true) : Fit (ps ++ ofWord cs) := by
  by_cases hne : cs = []
  · rw [hne, ofWord_nil, List.append_nil]
    exact h
  · rw [ofWord_of_ne hne]
    have hrun : Fit [run cs] := fit_cons.mpr ⟨⟨hne, hcs⟩, by simp, fit_nil⟩
    exact fit_append.mpr ⟨h, hrun, fun q hq _ _ hrun => by simp [hends q hq] at hrun⟩

/-- A gap fits behind whatever fits. -/
theorem Fit.append_gap (h : Fit ps) (hc : isAlphanumeric c = false) : Fit (ps ++ [gap c]) := by
  have hgap : Fit [gap c] := fit_cons.mpr ⟨hc, by simp, fit_nil⟩
  refine fit_append.mpr ⟨h, hgap, fun p _ q hq _ => ?_⟩
  obtain rfl : gap c = q := by simpa using hq
  rfl

/-! ## Cutting -/

/-- Puts a letter or number before pieces, joining it to a run that comes first. -/
def extend (c : Char) : List Piece → List Piece
  | run cs :: rest => run (c :: cs) :: rest
  | rest => run [c] :: rest

/-- Cuts a text into pieces. -/
def cut : List Char → List Piece
  | [] => []
  | c :: rest => if isAlphanumeric c then extend c (cut rest) else gap c :: cut rest

theorem join_extend : join (extend c ps) = c :: join ps := by
  rcases ps with - | ⟨cs | d, ps⟩ <;> rfl

/-- Nothing of a text is lost when it is cut. -/
theorem join_cut (text : List Char) : join (cut text) = text := by
  induction text with
  | nil => rfl
  | cons c text ih =>
      rw [cut]
      split
      · rw [join_extend, ih]
      · rw [join_cons, ih]
        rfl

theorem Fit.extend (h : Fit ps) (hc : isAlphanumeric c = true) : Fit (extend c ps) := by
  have halone : (run [c]).IsSound := ⟨List.cons_ne_nil _ _, by simpa using hc⟩
  rcases ps with - | ⟨cs | d, ps⟩
  · exact fit_cons.mpr ⟨halone, by simp, h⟩
  · obtain ⟨⟨-, hcs⟩, hmeet, hrest⟩ := fit_cons.mp h
    exact fit_cons.mpr ⟨⟨List.cons_ne_nil _ _, List.forall_mem_cons.mpr ⟨hc, hcs⟩⟩, hmeet, hrest⟩
  · exact fit_cons.mpr ⟨halone, by simp [MayMeet, isRun], h⟩

/-- A text is cut into pieces that fit. -/
theorem fit_cut (text : List Char) : Fit (cut text) := by
  induction text with
  | nil => exact fit_nil
  | cons c text ih =>
      rw [cut]
      split
      · next hc => exact ih.extend hc
      · next hc => exact fit_cons.mpr ⟨by simpa [IsSound] using hc, by simp [MayMeet, isRun], ih⟩

theorem cut_run (hne : cs ≠ []) (hcs : ∀ c ∈ cs, isAlphanumeric c = true)
    (hmeet : ∀ q ∈ (cut text).head?, (run cs).MayMeet q) :
    cut (cs ++ text) = run cs :: cut text := by
  induction cs with
  | nil => exact absurd rfl hne
  | cons c cs ih =>
      obtain ⟨hc, hcs⟩ := List.forall_mem_cons.mp hcs
      rw [List.cons_append, cut, if_pos hc]
      cases cs with
      | nil =>
          -- what follows is not a run, so there is nothing that the character could be joined to
          cases hq : cut text with
          | nil => simp [hq, extend]
          | cons q qs =>
              cases q with
              | run ds => exact absurd (hmeet (run ds) (by rw [hq]; rfl) rfl) (by simp [isRun])
              | gap d => simp [hq, extend]
      | cons d ds =>
          rw [ih (List.cons_ne_nil _ _) hcs hmeet]
          rfl

/-- Pieces that fit are what the text that consists of them is cut into. -/
theorem cut_join (h : Fit ps) : cut (join ps) = ps := by
  induction ps with
  | nil => rfl
  | cons p ps ih =>
      obtain ⟨hsound, hmeet, hrest⟩ := fit_cons.mp h
      rw [join_cons]
      cases p with
      | run cs =>
          obtain ⟨hne, hcs⟩ := hsound
          rw [chars, cut_run hne hcs (by rwa [ih hrest]), ih hrest]
      | gap c =>
          have hc : isAlphanumeric c = false := hsound
          rw [chars, List.singleton_append, cut, hc, ih hrest]
          rfl

/-! ## Pieces in their places -/

theorem exists_piece_at (h : i < (join ps).length) : ∃ ps₁ p ps₂, ps = ps₁ ++ p :: ps₂ ∧
    (join ps₁).length ≤ i ∧ i < (join ps₁).length + p.chars.length := by
  induction ps generalizing i with
  | nil => simp [join] at h
  | cons p ps ih =>
      rw [join_cons, List.length_append] at h
      by_cases hi : i < p.chars.length
      · exact ⟨[], p, ps, rfl, Nat.zero_le _, by simpa [join] using hi⟩
      · obtain ⟨ps₁, q, ps₂, rfl, hle, hlt⟩ := ih (i := i - p.chars.length) (by omega)
        refine ⟨p :: ps₁, q, ps₂, rfl, ?_, ?_⟩ <;> rw [join_cons, List.length_append] <;> omega

/-- A piece that is a run is a maximal run of the text. -/
theorem Fit.maximalRun (h : Fit (ps ++ run cs :: qs)) :
    MaximalRun (join (ps ++ run cs :: qs)) (join ps) cs (join qs) := by
  obtain ⟨hps, hrest, hleft⟩ := fit_append.mp h
  obtain ⟨⟨hne, hcs⟩, hright, hqs⟩ := fit_cons.mp hrest
  refine ⟨by simp [join_append, join_cons, chars], hne, hcs, fun c hc => ?_, fun c hc => ?_⟩
  · rcases List.eq_nil_or_concat ps with rfl | ⟨ps, p, rfl⟩
    · simp [join] at hc
    · have hmeet : p.MayMeet (run cs) := hleft p (by simp) (run cs) rfl
      cases p with
      | run ds => exact absurd (hmeet rfl) (by simp [isRun])
      | gap d =>
          obtain rfl : d = c := by simpa [join, chars] using hc
          exact hps.sound (gap d) (by simp)
  · cases qs with
    | nil => simp [join] at hc
    | cons q qs =>
        cases q with
        | run ds => exact absurd (hright (run ds) rfl rfl) (by simp [isRun])
        | gap d =>
            obtain rfl : d = c := by simpa [join, chars] using hc
            exact hqs.sound (gap d) List.mem_cons_self

theorem maximalRun_of_cut (h : cut text = ps ++ run cs :: qs) :
    MaximalRun text (join ps) cs (join qs) := by
  have hfit : Fit (ps ++ run cs :: qs) := h ▸ fit_cut text
  have hmax := hfit.maximalRun
  rwa [← h, join_cut] at hmax

end Piece

end Backplane
