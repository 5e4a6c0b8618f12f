import Backplane.Toml.Quote
import Backplane.Toml.Written
/-!
# `Backplane.Proofs.Toml.Strings`: strings are read as they were written

A string is written in one of four forms, and the form is told from the first three characters.  So
there are two things to show for each form: that the opening is not taken for another one, and that
the reader of the body gives every character back and stops where the writer did.

    form             escapes   what could go wrong
    basic            yes       an empty string, followed by a quote
    literal          no        an apostrophe, a line end or a control in the text
    lines, basic     yes       a line end at the start, quotes at the end
    lines, literal   no        a line end at the start, apostrophes at the end

What follows the string must not begin with a quote or an apostrophe.

The strings are those of a `ModulesConfig`.
-/
namespace Backplane

/-! ## Hexadecimal digits -/

namespace Hex

theorem value?_upperDigit {n : Nat} (h : n < 16) : value? (upperDigit n) = some n := by
  have hall : ∀ m : Fin 16, value? (upperDigit m) = some m.val := by decide
  exact hall ⟨n, h⟩

end Hex

namespace Toml

variable {c d x q : Char} {s r t : List Char} {run : Nat} {lines : Bool}

/-- Whether a text begins with neither a quote nor an apostrophe. -/
def Unquoted (r : List Char) : Prop := ∀ c ∈ r.head?, c ≠ '"' ∧ c ≠ '\''

/-! ## Characters -/

theorem isCommentChar_of_not_isControl (h : isControl c = false) (hn : c ≠ '\n') :
    isCommentChar c = true := by
  simp only [isControl, Bool.or_eq_false_iff, Bool.and_eq_false_iff, decide_eq_false_iff_not,
    Nat.not_lt, ne_eq, Decidable.not_not] at h
  obtain ⟨hlow, hdel⟩ := h
  simp only [isCommentChar, Bool.or_eq_true, Bool.and_eq_true, decide_eq_true_eq]
  rcases hlow with (hlow | htab) | hline
  · exact Or.inr ⟨hlow, hdel⟩
  · exact Or.inl htab
  · exact absurd hline hn

theorem toNat_lt_of_isControl (h : isControl c = true) : c.toNat < 65536 := by
  simp only [isControl, Bool.or_eq_true, Bool.and_eq_true, decide_eq_true_eq] at h
  omega

theorem consRead_some : consRead c (some (s, r)) = some (c :: s, r) := rfl

/-- A character is found again by the four digits of its code point. -/
theorem scalar?_digits (h : c.toNat < 65536) :
    scalar? ([c.toNat / 4096 % 16, c.toNat / 256 % 16, c.toNat / 16 % 16, c.toNat % 16].map
      Hex.upperDigit) = some c := by
  have hread : Hex.read? ([c.toNat / 4096 % 16, c.toNat / 256 % 16, c.toNat / 16 % 16,
      c.toNat % 16].map Hex.upperDigit) = some c.toNat := by
    have hdigit : ∀ n, Hex.value? (Hex.upperDigit (n % 16)) = some (n % 16) := by
      intro n
      exact Hex.value?_upperDigit (Nat.mod_lt _ (by omega))
    simp only [Hex.read?, List.map, List.foldlM, hdigit, Option.map_some, bind, Option.bind_some, pure,
      Option.some.injEq]
    omega
  have hvalid : c.toNat.isValidChar := c.valid
  rw [scalar?, hread, Option.bind_some, if_pos hvalid, Char.ofNat_toNat]

/-! ## Escapes -/

/-- Whether a reader of a body takes characters as they are and undoes escapes. -/
structure Unescapes (body : Reader (List Char)) : Prop where
  plain : ∀ {c t}, isBasicChar c = true → body (c :: t) = consRead c (body t)
  short : ∀ {c x t}, shortEscape? c = some x → body ('\\' :: c :: t) = consRead x (body t)
  code : ∀ {a b c d x t}, scalar? [a, b, c, d] = some x →
    body ('\\' :: 'u' :: a :: b :: c :: d :: t) = consRead x (body t)

theorem shortEscape?_eq_some (h : shortEscape? c = some x) :
    c ≠ 'u' ∧ c ≠ 'U' ∧ c ≠ '\r' ∧ c ≠ '\n' ∧ isBlankChar c = false := by
  have hne : ∀ d, shortEscape? d = none → c ≠ d := by
    rintro d hd rfl
    simp [hd] at h
  refine ⟨hne _ rfl, hne _ rfl, hne _ rfl, hne _ rfl, ?_⟩
  simp [isBlankChar, hne ' ' rfl, hne '\t' rfl]

theorem isBasicChar_ne (h : isBasicChar c = true) : c ≠ '"' ∧ c ≠ '\\' ∧ c ≠ '\r' := by
  have hne : ∀ d, isBasicChar d = false → c ≠ d := by
    rintro d hd rfl
    simp [hd] at h
  exact ⟨hne _ rfl, hne _ rfl, hne _ rfl⟩

theorem basicBody_unescapes : Unescapes basicBody where
  plain := by
    intro c t h
    obtain ⟨hq, hb, -⟩ := isBasicChar_ne h
    rw [basicBody]
    · simp [hq, h]
    · simp [hb]
    · simp [hb]
    · simp [hb]
  short := by
    intro c x t h
    obtain ⟨hu, hU, -⟩ := shortEscape?_eq_some h
    rw [basicBody]
    · simp [h]
    · simp [hu]
    · simp [hU]
  code := by
    intro a b c d x t h
    rw [basicBody, h, Option.bind_some]

theorem linesBasicBody_unescapes : Unescapes (linesBasicBody .text) where
  plain := by
    intro c t h
    obtain ⟨hq, hb, hr⟩ := isBasicChar_ne h
    rw [linesBasicBody]
    · simp [h]
    all_goals simp [hq, hb, hr]
  short := by
    intro c x t h
    obtain ⟨hu, hU, hr, hn, hblank⟩ := shortEscape?_eq_some h
    rw [linesBasicBody]
    · simp [h, hn, hblank]
    all_goals simp [hu, hU, hr]
  code := by
    intro a b c d x t h
    rw [linesBasicBody, h, Option.bind_some]
    simp

/-- What may be written for a character other than a quote. -/
inductive Spelling (lines : Bool) (c : Char) : List Char → Prop
  | short {d : Char} (h : shortEscape? d = some c) : Spelling lines c ['\\', d]
  | code (h : isControl c = true) : Spelling lines c (codeEscape c)
  | line (hl : lines = true) (hc : c = '\n') : Spelling lines c ['\n']
  | plain (h : isBasicChar c = true) : Spelling lines c [c]

theorem escapedChar_spelling (lines : Bool) (hc : c ≠ '"') : Spelling lines c (escapedChar lines c) := by
  rw [escapedChar]
  split
  · next h => exact .short (by rw [h]; rfl)
  split
  · next h => exact .short (by rw [h]; rfl)
  split
  · next h =>
      split
      · next hl => exact .line hl h
      · exact .short (by rw [h]; rfl)
  next hnewline =>
  split
  · next h => exact .short (by rw [h]; rfl)
  split
  · next h => exact .short (by rw [h]; rfl)
  split
  · next h => exact .short (by rw [h]; rfl)
  next hslash =>
  split
  · next hcontrol => exact .code hcontrol
  · next hcontrol =>
      have hcomment : isCommentChar c = true :=
        isCommentChar_of_not_isControl (by simpa using hcontrol) hnewline
      exact .plain (by simp [isBasicChar, hcomment, hc, hslash])

/-- A spelling of a character is read as that character. -/
theorem Unescapes.spelling {body : Reader (List Char)} (hb : Unescapes body) {w : List Char}
    (hline : lines = true → body ('\n' :: t) = consRead '\n' (body t)) (hw : Spelling lines c w) :
    body (w ++ t) = consRead c (body t) := by
  cases hw with
  | short h => exact hb.short h
  | code h => exact hb.code (scalar?_digits (toNat_lt_of_isControl h))
  | line hl hc =>
      subst hc
      exact hline hl
  | plain h => exact hb.plain h

/-- A spelling begins with no quote, and with a line end only if it stands for one. -/
theorem Spelling.head {w : List Char} (hw : Spelling lines c w) :
    ∃ d t, w = d :: t ∧ d ≠ '"' ∧ d ≠ '\r' ∧ (c ≠ '\n' → d ≠ '\n') := by
  cases hw with
  | short h => exact ⟨_, _, rfl, by decide, by decide, fun _ => by decide⟩
  | code h => exact ⟨_, _, rfl, by decide, by decide, fun _ => by decide⟩
  | line hl hc => exact ⟨_, _, rfl, by decide, by decide, fun hn => absurd hc hn⟩
  | plain h =>
      obtain ⟨hq, -, hr⟩ := isBasicChar_ne h
      exact ⟨_, _, rfl, hq, hr, fun hn => hn⟩

/-! ## Bodies on one line -/

theorem basicBody_escaped : basicBody (escaped false run s ++ '"' :: r) = some (s, r) := by
  induction s generalizing run with
  | nil =>
      rw [escaped, List.nil_append, basicBody]
      · simp
      all_goals simp
  | cons c s ih =>
      rw [escaped]
      by_cases hc : c = '"'
      · subst hc
        have hquote : shortEscape? '"' = some '"' := rfl
        simp only [if_true, Bool.false_and, Bool.false_eq_true, if_false, List.cons_append]
        rw [basicBody_unescapes.short hquote, ih, consRead_some]
      · rw [if_neg hc, List.append_assoc,
          basicBody_unescapes.spelling (by simp) (escapedChar_spelling false hc), ih, consRead_some]

theorem literalBody_plain (h : ∀ c ∈ s, isLiteralChar c = true) :
    literalBody (s ++ '\'' :: r) = some (s, r) := by
  induction s with
  | nil => simp [literalBody]
  | cons c s ih =>
      have hc : isLiteralChar c = true := h c List.mem_cons_self
      have hne : c ≠ '\'' := by
        rintro rfl
        simp [isLiteralChar] at hc
      rw [List.cons_append, literalBody, if_neg hne, if_pos hc,
        ih fun d hd => h d (List.mem_cons_of_mem _ hd), consRead_some]

/-! ## Bodies on several lines -/

/-- Up to two quotes may stand before those that close a string of several lines. -/
theorem linesBasicBody_close (hr : Unquoted r) {n : Nat} (hn : n ≤ 2) :
    linesBasicBody .text (List.replicate n '"' ++ '"' :: '"' :: '"' :: r)
      = some (List.replicate n '"', r) := by
  have hquote : ∀ r', r ≠ '"' :: r' := by
    rintro r' rfl
    exact (hr '"' rfl).1 rfl
  match n with
  | 0 => rw [List.replicate, List.nil_append, linesBasicBody] <;> simp [hquote]
  | 1 => simp [List.replicate, linesBasicBody]
  | 2 => simp [List.replicate, linesBasicBody]
  | _ + 3 => omega

/-- A quote that does not begin three stands for itself. -/
theorem linesBasicBody_quote (h : ∀ t', t ≠ '"' :: '"' :: t') :
    linesBasicBody .text ('"' :: t) = consRead '"' (linesBasicBody .text t) := by
  rw [linesBasicBody]
  · simp
  all_goals simp [h]

theorem linesBasicBody_newline :
    linesBasicBody .text ('\n' :: t) = consRead '\n' (linesBasicBody .text t) := by
  rw [linesBasicBody]
  · simp
  all_goals simp

/-- The third quote in a row is escaped. -/
theorem escaped_two_quotes (hs : s ≠ []) : ∃ d t, escaped true 2 s = d :: t ∧ d ≠ '"' := by
  cases s with
  | nil => exact absurd rfl hs
  | cons c s =>
      rw [escaped]
      by_cases hc : c = '"'
      · exact ⟨'\\', '"' :: escaped true 0 s, by simp [hc], by decide⟩
      · obtain ⟨d, t, hd, hne, -, -⟩ := (escapedChar_spelling true hc).head
        exact ⟨d, t ++ escaped true 0 s, by simp [hc, hd], hne⟩

/-- After a quote come two more only at the end of the text. -/
theorem escaped_one_quote (hrun : run < 2) (hs : s ≠ []) (hlast : run = 0 → s ≠ ['"']) :
    ∀ t', escaped true (run + 1) s ++ t ≠ '"' :: '"' :: t' := by
  intro t' heq
  cases s with
  | nil => exact absurd rfl hs
  | cons c s =>
      rw [escaped] at heq
      by_cases hc : c = '"'
      · by_cases hzero : run = 0
        · have hrest : s ≠ [] := by
            rintro rfl
            exact hlast hzero (by rw [hc])
          obtain ⟨d, u, hd, hne⟩ := escaped_two_quotes hrest
          simp [hc, hzero, hd, hne] at heq
        · have hone : run = 1 := by omega
          simp [hc, hone] at heq
      · obtain ⟨d, u, hd, hne, -, -⟩ := (escapedChar_spelling true hc).head
        simp [hc, hd, hne] at heq

theorem linesBasicBody_escaped (hr : Unquoted r) :
    linesBasicBody .text (escaped true run s ++ '"' :: '"' :: '"' :: r) = some (s, r) := by
  induction s generalizing run with
  | nil => exact linesBasicBody_close hr (Nat.zero_le 2)
  | cons c s ih =>
      rw [escaped]
      by_cases hc : c = '"'
      · subst hc
        by_cases hrun : run < 2
        · simp only [if_true, hrun, decide_true, Bool.and_true, List.cons_append]
          -- quotes at the end of the text are read together with those that close it
          by_cases hend : s = []
          · subst hend
            exact linesBasicBody_close hr (n := 1) (by omega)
          · by_cases htwo : run = 0 ∧ s = ['"']
            · obtain ⟨rfl, rfl⟩ := htwo
              exact linesBasicBody_close hr (n := 2) (by omega)
            · have hnot := escaped_one_quote (t := '"' :: '"' :: '"' :: r) hrun hend
                fun hzero hs => htwo ⟨hzero, hs⟩
              rw [linesBasicBody_quote hnot, ih, consRead_some]
        · have hquote : shortEscape? '"' = some '"' := rfl
          simp only [if_true, hrun, decide_false, Bool.and_false, Bool.false_eq_true, if_false,
            List.cons_append]
          rw [linesBasicBody_unescapes.short hquote, ih, consRead_some]
      · rw [if_neg hc, List.append_assoc,
          linesBasicBody_unescapes.spelling (fun _ => linesBasicBody_newline)
            (escapedChar_spelling true hc), ih, consRead_some]

/-- Up to two apostrophes may stand before those that close a string of several lines. -/
theorem linesLiteralBody_close (hr : Unquoted r) {n : Nat} (hn : n ≤ 2) :
    linesLiteralBody (List.replicate n '\'' ++ '\'' :: '\'' :: '\'' :: r)
      = some (List.replicate n '\'', r) := by
  have hquote : ∀ r', r ≠ '\'' :: r' := by
    rintro r' rfl
    exact (hr '\'' rfl).2 rfl
  match n with
  | 0 => rw [List.replicate, List.nil_append, linesLiteralBody] <;> simp [hquote]
  | 1 => simp [List.replicate, linesLiteralBody]
  | 2 => simp [List.replicate, linesLiteralBody]
  | _ + 3 => omega

/-- An apostrophe that does not begin three stands for itself, as every character does but a line
end of two characters. -/
theorem linesLiteralBody_cons (hc : c = '\n' ∨ c = '\'' ∨ isLiteralChar c = true)
    (h : c = '\'' → ∀ t', t ≠ '\'' :: '\'' :: t') :
    linesLiteralBody (c :: t) = consRead c (linesLiteralBody t) := by
  have hreturn : c ≠ '\r' := by
    rintro rfl
    simp [isLiteralChar, isCommentChar] at hc
  rw [linesLiteralBody]
  · rcases hc with rfl | rfl | hc <;> simp [*]
  · simp [hreturn]
  · rintro r' rfl rfl
    exact h rfl _ rfl
  · rintro r' rfl rfl
    exact h rfl _ rfl
  · rintro r' rfl rfl
    exact h rfl _ rfl

/-! ## Runs of a character -/

theorem le_longestRun (q : Char) (run : Nat) (s : List Char) : run ≤ longestRun q run s := by
  induction s generalizing run with
  | nil => exact Nat.le_refl run
  | cons c s ih =>
      rw [longestRun]
      split
      · have hmore : run + 1 ≤ longestRun q (run + 1) s := ih (run + 1)
        omega
      · exact Nat.le_max_left _ _

theorem notMem_of_longestRun (h : longestRun q 0 s = 0) : q ∉ s := by
  induction s with
  | nil => simp
  | cons c s ih =>
      rw [longestRun] at h
      split at h
      · have hpos : 0 + 1 ≤ longestRun q (0 + 1) s := le_longestRun q (0 + 1) s
        omega
      · next hne =>
          have hrest : longestRun q 0 s = 0 := by omega
          simp [Ne.symm hne, ih hrest]

theorem linesLiteralBody_plain (hr : Unquoted r) (hrun : longestRun '\'' run s ≤ 2)
    (hs : ∀ c ∈ s, c = '\n' ∨ c = '\'' ∨ isLiteralChar c = true) :
    linesLiteralBody (s ++ '\'' :: '\'' :: '\'' :: r) = some (s, r) := by
  induction s generalizing run with
  | nil => exact linesLiteralBody_close hr (Nat.zero_le 2)
  | cons c s ih =>
      have hc := hs c List.mem_cons_self
      have hrest : ∀ d ∈ s, d = '\n' ∨ d = '\'' ∨ isLiteralChar d = true :=
        fun d hd => hs d (List.mem_cons_of_mem _ hd)
      rw [longestRun] at hrun
      by_cases hq : c = '\''
      · rw [if_pos hq] at hrun
        subst hq
        by_cases hend : s = []
        · subst hend
          exact linesLiteralBody_close hr (n := 1) (by omega)
        · by_cases htwo : s = ['\'']
          · subst htwo
            exact linesLiteralBody_close hr (n := 2) (by omega)
          · have hnot : ∀ t', s ++ '\'' :: '\'' :: '\'' :: r ≠ '\'' :: '\'' :: t' := by
              intro t' heq
              match s, hend, htwo with
              | [d], _, htwo => simp_all
              | d :: e :: s', _, _ =>
                  simp only [List.cons_append, List.cons.injEq] at heq
                  obtain ⟨rfl, rfl, -⟩ := heq
                  have hlong := le_longestRun '\'' (run + 1 + 1 + 1) s'
                  simp only [longestRun, if_true] at hrun
                  omega
            rw [List.cons_append, linesLiteralBody_cons hc fun _ => hnot, ih hrun hrest, consRead_some]
      · rw [if_neg hq] at hrun
        have hless : longestRun '\'' 0 s ≤ 2 := by omega
        rw [List.cons_append, linesLiteralBody_cons hc (absurd · hq), ih hless hrest, consRead_some]

/-! ## Forms -/

theorem isLiteralChar_of_not_isControl (h : isControl c = false) (hn : c ≠ '\n') (hq : c ≠ '\'') :
    isLiteralChar c = true := by
  simp [isLiteralChar, isCommentChar_of_not_isControl h hn, hq]

/-- What is written between single apostrophes shows as it is, on one line. -/
theorem formOf_literal (h : formOf s = .literal) : ∀ c ∈ s, isLiteralChar c = true := by
  have hplain : s.any isControl = false ∧ s.contains '\n' = false ∧ longestRun '\'' 0 s = 0 := by
    simp only [formOf] at h
    split at h
    · simp at h
    split at h
    · next hl => simpa [and_assoc] using hl
    split at h
    · simp at h
    split at h
    · simp at h
    split at h
    · simp at h
    · simp at h
  obtain ⟨hcontrol, hline, hrun⟩ := hplain
  intro c hc
  refine isLiteralChar_of_not_isControl ?_ ?_ ?_
  · simpa using List.any_eq_false.mp hcontrol c hc
  · rintro rfl
    simp [hc] at hline
  · rintro rfl
    exact notMem_of_longestRun hrun hc

/-- What is written between three apostrophes shows as it is, with never three of them in a row. -/
theorem formOf_linesLiteral (h : formOf s = .linesLiteral) :
    (∀ c ∈ s, isControl c = false) ∧ longestRun '\'' 0 s ≤ 2 := by
  have hplain : s.any isControl = false ∧ longestRun '\'' 0 s ≤ 2 := by
    simp only [formOf] at h
    split at h
    · simp at h
    split at h
    · simp at h
    split at h
    · simp at h
    split at h
    · next hl => simpa using hl
    split at h
    · simp at h
    · simp at h
  refine ⟨fun c hc => ?_, hplain.2⟩
  simpa using List.any_eq_false.mp hplain.1 c hc

/-! ## Openings -/

theorem string?_basic (h : ∀ t', t ≠ '"' :: '"' :: t') : string? ('"' :: t) = basicBody t := by
  rw [string?]
  exact h

theorem string?_literal (h : ∀ t', t ≠ '\'' :: '\'' :: t') : string? ('\'' :: t) = literalBody t := by
  rw [string?]
  exact h

theorem dropNewline_cons (hn : c ≠ '\n') (hr : c ≠ '\r') : dropNewline (c :: t) = c :: t := by
  rw [dropNewline, newline?]
  · rfl
  all_goals simp [hn, hr]

/-- The line end after an opening is dropped, and no other. -/
theorem dropNewline_opening {w : List Char}
    (h : s.contains '\n' = false → ∃ d u, w = d :: u ∧ d ≠ '\n' ∧ d ≠ '\r') :
    dropNewline (opening s ++ w) = w := by
  rw [opening]
  cases hs : s.contains '\n' with
  | true => rfl
  | false =>
      obtain ⟨d, u, rfl, hn, hr⟩ := h hs
      exact dropNewline_cons hn hr

theorem escaped_append_head (hs : s.contains '\n' = false) :
    ∃ d u, escaped lines run s ++ '"' :: t = d :: u ∧ d ≠ '\n' ∧ d ≠ '\r' := by
  cases s with
  | nil => exact ⟨'"', t, rfl, by decide, by decide⟩
  | cons c s =>
      have hc : c ≠ '\n' := by
        rintro rfl
        simp at hs
      rw [escaped]
      split
      · split
        · exact ⟨_, _, rfl, by decide, by decide⟩
        · exact ⟨_, _, rfl, by decide, by decide⟩
      · next hq =>
          obtain ⟨d, u, hd, -, hr, hn⟩ := (escapedChar_spelling lines hq).head
          rw [hd]
          exact ⟨_, _, rfl, hn hc, hr⟩

/-- A string on one line does not open like one on several. -/
theorem escaped_false_head (hr : Unquoted r) :
    ∀ t', escaped false 0 s ++ '"' :: r ≠ '"' :: '"' :: t' := by
  intro t' heq
  cases s with
  | nil =>
      obtain rfl : r = '"' :: t' := by simpa [escaped] using heq
      exact (hr '"' rfl).1 rfl
  | cons c s =>
      rw [escaped] at heq
      by_cases hq : c = '"'
      · simp [hq] at heq
      · obtain ⟨d, u, hd, hne, -⟩ := (escapedChar_spelling false hq).head
        simp [hq, hd, hne] at heq

theorem literal_head (hr : Unquoted r) (hs : ∀ c ∈ s, isLiteralChar c = true) :
    ∀ t', s ++ '\'' :: r ≠ '\'' :: '\'' :: t' := by
  intro t' heq
  cases s with
  | nil =>
      obtain rfl : r = '\'' :: t' := by simpa using heq
      exact (hr '\'' rfl).2 rfl
  | cons c s =>
      obtain ⟨rfl, -⟩ := List.cons.inj heq
      simpa [isLiteralChar] using hs '\'' List.mem_cons_self

/-! ## Strings -/

/-- A string is read as it was written, whatever characters are in it. -/
theorem string?_writeString (text : String) (hr : Unquoted r) :
    string? ((writeString text).toList ++ r) = some (text.toList, r) := by
  have hopen : "\"\"\"".toList = ['"', '"', '"'] := rfl
  have hopen' : "'''".toList = ['\'', '\'', '\''] := rfl
  rw [writeString, String.toList_ofList]
  cases hform : formOf text.toList with
  | basic =>
      simp only [List.append_assoc, List.cons_append, List.nil_append]
      rw [string?_basic (escaped_false_head hr), basicBody_escaped]
  | literal =>
      have hs := formOf_literal hform
      simp only [List.append_assoc, List.cons_append, List.nil_append]
      rw [string?_literal (literal_head hr hs), literalBody_plain hs]
  | linesBasic =>
      simp only [hopen, List.append_assoc, List.cons_append, List.nil_append]
      rw [string?, dropNewline_opening escaped_append_head, linesBasicBody_escaped hr]
  | linesLiteral =>
      obtain ⟨hcontrol, hrun⟩ := formOf_linesLiteral hform
      simp only [hopen', List.append_assoc, List.cons_append, List.nil_append]
      rw [string?, dropNewline_opening, linesLiteralBody_plain hr hrun]
      · intro c hc
        by_cases hn : c = '\n'
        · exact Or.inl hn
        · by_cases hq : c = '\''
          · exact Or.inr (Or.inl hq)
          · exact Or.inr (Or.inr (isLiteralChar_of_not_isControl (hcontrol c hc) hn hq))
      · intro hnone
        cases hs : text.toList with
        | nil => exact ⟨_, _, rfl, by decide, by decide⟩
        | cons c s =>
            rw [hs] at hcontrol hnone
            refine ⟨c, _, rfl, ?_, ?_⟩
            · rintro rfl
              simp at hnone
            · rintro rfl
              simpa [isControl] using hcontrol '\r' List.mem_cons_self

/-- A written string begins with a quote or an apostrophe. -/
theorem writeString_head (text : String) :
    ∃ c t, (writeString text).toList = c :: t ∧ (c = '"' ∨ c = '\'') := by
  rw [writeString, String.toList_ofList]
  cases formOf text.toList with
  | basic => exact ⟨_, _, rfl, Or.inl rfl⟩
  | literal => exact ⟨_, _, rfl, Or.inr rfl⟩
  | linesBasic => exact ⟨_, _, rfl, Or.inl rfl⟩
  | linesLiteral => exact ⟨_, _, rfl, Or.inr rfl⟩

end Toml

end Backplane
