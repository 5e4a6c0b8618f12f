import Backplane.Proofs.Toml.Strings
import Backplane.Toml.Statement
import Mathlib.Data.List.TakeDrop
/-!
# `Backplane.Proofs.Toml.Statements`: lines are read as they were written

A written document is made of few kinds of lines: a header in double brackets, an entry with a bare
key and a string or a list of strings, and an empty line.  Each is read as one statement, or as
none, and the rest of the document is left as it is.  So a document is read line by line, and its
statements are those of its lines in order.

The documents are those of a `ModulesConfig`.
-/
namespace Backplane.Toml

variable {c : Char} {s r t w : List Char} {n : Nat} {v : Value} {x : Statement}

/-! ## Blanks -/

theorem skipBlanks_cons (h : isBlankChar c = false) : skipBlanks (c :: t) = c :: t := by
  simp [skipBlanks, h]

theorem skipBlanks_space : skipBlanks (' ' :: t) = skipBlanks t := rfl

/-- Whether a character ends the blanks, comments and line ends before it. -/
def isSolid (c : Char) : Bool := !isBlankChar c && c ≠ '\n' && c ≠ '\r' && c ≠ '#'

theorem skipLines_solid (h : isSolid c = true) : skipLines (c :: t) = some (c :: t) := by
  simp only [isSolid, Bool.and_eq_true, Bool.not_eq_true', decide_eq_true_eq, ne_eq] at h
  obtain ⟨⟨⟨hblank, hline⟩, hreturn⟩, hcomment⟩ := h
  rw [skipLines, skipLinesFrom]
  · simp [hblank, hline, hcomment]
  · simp [hreturn]

theorem skipLines_space : skipLines (' ' :: t) = skipLines t := by
  rw [skipLines, skipLinesFrom]
  · simp [isBlankChar, skipLines]
  · simp

theorem lineEnd?_newline : lineEnd? ('\n' :: t) = some t := rfl

/-! ## Keys -/

/-- Whether a text is a bare key. -/
structure IsBare (w : List Char) : Prop where
  ne_nil : w ≠ []
  chars : ∀ c ∈ w, isBareChar c = true

/-- What may follow a bare key: nothing that could belong to it. -/
def EndsKey (t : List Char) : Prop :=
  (∀ c ∈ t.head?, isBareChar c = false) ∧ (skipBlanks t).head? ≠ some '.'

theorem IsBare.of_all (hne : w ≠ []) (h : w.all isBareChar = true) : IsBare w where
  ne_nil := hne
  chars := List.all_eq_true.mp h

theorem IsBare.head (hw : IsBare w) : ∃ c u, w = c :: u ∧ isBareChar c = true := by
  cases w with
  | nil => exact absurd rfl hw.ne_nil
  | cons c u => exact ⟨c, u, rfl, hw.chars c List.mem_cons_self⟩

theorem isBareChar_ne (h : isBareChar c = true) :
    (c ≠ '"' ∧ c ≠ '\'' ∧ c ≠ '[') ∧ (c ≠ '#' ∧ c ≠ '\n' ∧ c ≠ '\r') ∧ isBlankChar c = false := by
  have hne : ∀ d, isBareChar d = false → c ≠ d := by
    rintro d hd rfl
    simp [hd] at h
  refine ⟨⟨hne _ rfl, hne _ rfl, hne _ rfl⟩, ⟨hne _ rfl, hne _ rfl, hne _ rfl⟩, ?_⟩
  simp [isBlankChar, hne ' ' rfl, hne '\t' rfl]

/-- A bare key ends where a character comes that is none of its kind. -/
theorem keyPart?_bare (hw : IsBare w) (ht : ∀ c ∈ t.head?, isBareChar c = false) :
    keyPart? (w ++ t) = some (String.ofList w, t) := by
  have hspan : (w ++ t).span isBareChar = (w, t) := by
    have htake : t.takeWhile isBareChar = [] := by
      cases t with
      | nil => rfl
      | cons c t => simp [ht c rfl]
    have hdrop : t.dropWhile isBareChar = t := by
      cases t with
      | nil => rfl
      | cons c t => simp [ht c rfl]
    rw [List.span_eq_takeWhile_dropWhile, List.takeWhile_append_of_pos hw.chars,
      List.dropWhile_append_of_pos hw.chars, htake, hdrop, List.append_nil]
  obtain ⟨c, u, rfl, hc⟩ := hw.head
  obtain ⟨⟨hquote, hapostrophe, -⟩, -⟩ := isBareChar_ne hc
  rw [keyPart?, hspan]
  · rintro r' heq
    exact hquote (List.cons.inj heq).1
  · rintro r' heq
    exact hapostrophe (List.cons.inj heq).1

/-- A bare key is read together with the blanks after it. -/
theorem key?_bare (hw : IsBare w) (ht : EndsKey t) :
    key? (w ++ t) = some ([String.ofList w], skipBlanks t) := by
  obtain ⟨hend, hdot⟩ := ht
  have hskip : skipBlanks (w ++ t) = w ++ t := by
    obtain ⟨c, u, rfl, hc⟩ := hw.head
    exact skipBlanks_cons (isBareChar_ne hc).2.2
  have hparts : keyParts? (w ++ t) = some ([String.ofList w], skipBlanks t) := by
    rw [keyParts?, hskip, keyPart?_bare hw hend]
    simp only
    split
    · next r' hr' => simp [hr'] at hdot
    · rfl
  rw [key?, hparts]
  rfl

/-! ## Values -/

theorem value?_string (n : Nat) (text : String) (hr : Unquoted r) :
    value? n ((writeString text).toList ++ r) = some (.text text, r) := by
  have hread := string?_writeString text hr
  obtain ⟨c, u, hhead, hc⟩ := writeString_head text
  have hstarts : startsString ((writeString text).toList ++ r) = true := by
    rw [hhead]
    simpa [startsString] using hc
  cases n with
  | zero => rw [value?, if_pos hstarts, hread, Option.map_some, String.ofList_toList]
  | succ n =>
      rw [value?, if_pos hstarts, hread, Option.map_some, String.ofList_toList]
      · rw [hhead]
        rintro r' heq
        obtain ⟨rfl, -⟩ := List.cons.inj heq
        simp at hc
      · rw [hhead]
        rintro r' heq
        obtain ⟨rfl, -⟩ := List.cons.inj heq
        simp at hc

/-- Strings with commas between them. -/
def listed (texts : List String) : List Char :=
  [',', ' '].intercalate (texts.map fun text => (writeString text).toList)

theorem skipLines_writeString (text : String) :
    skipLines ((writeString text).toList ++ r) = some ((writeString text).toList ++ r) := by
  obtain ⟨c, u, hhead, hc⟩ := writeString_head text
  rw [hhead, List.cons_append]
  refine skipLines_solid ?_
  rcases hc with rfl | rfl <;> rfl

theorem items?_last (hs : skipLines s = some t) (hne : t.head? ≠ some ']') {item : Reader Value}
    (hitem : item t = some (v, ']' :: r)) : items? item s = some ([v], r) := by
  rw [items?, hs]
  cases t with
  | nil =>
      simp only [hitem]
      rfl
  | cons c t =>
      have hc : c ≠ ']' := by
        rintro rfl
        exact hne rfl
      simp [hc, hitem, skipLines_solid (c := ']') rfl]

theorem items?_more (hs : skipLines s = some t) (hne : t.head? ≠ some ']') {item : Reader Value}
    (hitem : item t = some (v, ',' :: r)) (hlen : r.length < s.length) :
    items? item s = (items? item r).map fun x => (v :: x.1, x.2) := by
  rw [items?, hs]
  cases t with
  | nil => simp [hitem, skipLines_solid (c := ',') rfl, hlen]
  | cons c t =>
      have hc : c ≠ ']' := by
        rintro rfl
        exact hne rfl
      simp [hc, hitem, skipLines_solid (c := ',') rfl, hlen]

/-- A list of strings is read item by item; `lead` is the blank before an item, if any. -/
theorem items?_listed (n : Nat) {texts : List String} (hne : texts ≠ []) {lead : List Char}
    (hlead : ∀ t, skipLines (lead ++ t) = skipLines t) :
    items? (value? n) (lead ++ listed texts ++ ']' :: r) = some (texts.map .text, r) := by
  induction texts generalizing lead with
  | nil => exact absurd rfl hne
  | cons text texts ih =>
      obtain ⟨c, u, hhead, hc⟩ := writeString_head text
      have hopen : ∀ t, ((writeString text).toList ++ t).head? ≠ some ']' := by
        intro t
        rw [hhead]
        rcases hc with rfl | rfl <;> simp
      have hskip : ∀ t, skipLines (lead ++ ((writeString text).toList ++ t)) =
          some ((writeString text).toList ++ t) := by
        intro t
        rw [hlead, skipLines_writeString]
      cases texts with
      | nil =>
          have hitem : value? n ((writeString text).toList ++ ']' :: r) = some (.text text, ']' :: r) :=
            value?_string n text (by simp [Unquoted])
          rw [listed, List.map_singleton, List.intercalate_singleton, List.append_assoc]
          exact items?_last (hskip _) (hopen _) hitem
      | cons text' texts =>
          let rest := [' '] ++ listed (text' :: texts) ++ ']' :: r
          have hitem : value? n ((writeString text).toList ++ ',' :: rest) =
              some (.text text, ',' :: rest) :=
            value?_string n text (by simp [Unquoted])
          have hmore : items? (value? n) rest = some ((text' :: texts).map .text, r) :=
            ih (by simp) fun t => skipLines_space
          have hshape : lead ++ listed (text :: text' :: texts) ++ ']' :: r =
              lead ++ ((writeString text).toList ++ ',' :: rest) := by
            simp [rest, listed, List.intercalate_cons_cons]
          have hlen : rest.length < (lead ++ ((writeString text).toList ++ ',' :: rest)).length := by
            simp only [List.length_append, List.length_cons]
            omega
          rw [hshape, items?_more (hskip _) (hopen _) hitem hlen, hmore]
          rfl

theorem value?_nil : value? (n + 1) ('[' :: ']' :: r) = some (.list false [], r) := by
  have hitems : items? (value? n) (']' :: r) = some ([], r) := by
    rw [items?, skipLines_solid rfl]
    rfl
  rw [value?, hitems]
  rfl

theorem value?_list {texts : List String} (hne : texts ≠ []) :
    value? (n + 1) ('[' :: listed texts ++ ']' :: r) = some (.list false (texts.map .text), r) := by
  have hitems : items? (value? n) ([] ++ listed texts ++ ']' :: r) = some (texts.map .text, r) :=
    items?_listed n hne fun _ => rfl
  rw [List.nil_append] at hitems
  rw [List.cons_append, value?, hitems]
  rfl

/-! ## Statements -/

/-- A header in double brackets. -/
theorem statement?_append (hw : IsBare w) :
    statement? ('[' :: '[' :: w ++ ']' :: ']' :: '\n' :: r) = some (.append [String.ofList w], r) := by
  have hkey : key? (w ++ ']' :: ']' :: '\n' :: r) =
      some ([String.ofList w], ']' :: ']' :: '\n' :: r) := by
    have hends : EndsKey (']' :: ']' :: '\n' :: r) := by
      constructor
      · intro c hc
        obtain rfl : ']' = c := by simpa using hc
        rfl
      · simp [skipBlanks, isBlankChar]
    rw [key?_bare hw hends, skipBlanks_cons rfl]
  rw [List.cons_append, List.cons_append, statement?, headerLine?, hkey]
  rfl

/-- An entry with a bare key, whatever its value. -/
theorem statement?_entry (hw : IsBare w) (hc : isBlankChar c = false)
    (hv : value? depthLimit (c :: t) = some (v, '\n' :: r)) :
    statement? (w ++ ' ' :: '=' :: ' ' :: c :: t) = some (.entry [String.ofList w] v, r) := by
  have hends : EndsKey (' ' :: '=' :: ' ' :: c :: t) := by
    constructor
    · intro d hd
      obtain rfl : ' ' = d := by simpa using hd
      rfl
    · simp [skipBlanks, isBlankChar]
  have hkey : key? (w ++ ' ' :: '=' :: ' ' :: c :: t) =
      some ([String.ofList w], '=' :: ' ' :: c :: t) := by
    rw [key?_bare hw hends, skipBlanks_space, skipBlanks_cons rfl]
  have hline : entryLine? (w ++ ' ' :: '=' :: ' ' :: c :: t) =
      some (.entry [String.ofList w] v, r) := by
    simp [entryLine?, hkey, skipBlanks_space, skipBlanks_cons hc, hv, lineEnd?_newline]
  obtain ⟨d, u, rfl, hd⟩ := hw.head
  obtain ⟨⟨-, -, hbracket⟩, -⟩ := isBareChar_ne hd
  rw [List.cons_append, statement?]
  · exact hline
  · rintro r' heq
    exact hbracket (List.cons.inj heq).1
  · rintro r' heq
    exact hbracket (List.cons.inj heq).1

/-! ## Documents -/

/-- Whether a character may be the first of a statement. -/
def opensStatement (c : Char) : Bool := !isBlankChar c && !startsEmptyLine [c]

theorem opensStatement_of_isBareChar (h : isBareChar c = true) : opensStatement c = true := by
  obtain ⟨-, ⟨hcomment, hline, hreturn⟩, hblank⟩ := isBareChar_ne h
  simp [opensStatement, startsEmptyLine, hblank, hcomment, hline, hreturn]

/-- A document whose first line is a statement. -/
theorem statements?_line (hc : opensStatement c = true) (hs : statement? (c :: t) = some (x, r))
    (hlen : r.length < (c :: t).length) :
    statements? (c :: t) = (statements? r).map (x :: ·) := by
  simp only [opensStatement, Bool.and_eq_true, Bool.not_eq_true'] at hc
  obtain ⟨hblank, hempty⟩ := hc
  have hstarts : startsEmptyLine (c :: t) = false := hempty
  rw [statements?, skipBlanks_cons hblank, if_neg (List.cons_ne_nil _ _), hstarts]
  simp only [Bool.false_eq_true, if_false, hs, hlen, if_true]

theorem statements?_newline : statements? ('\n' :: r) = statements? r := by
  rw [statements?, skipBlanks_cons rfl]
  simp [startsEmptyLine, emptyLine?]

theorem statements?_nil : statements? [] = some [] := by
  rw [statements?]
  rfl

end Backplane.Toml
