import Backplane.Bundle.Reference
import Mathlib.Data.List.Basic
/-!
# `Backplane.Proofs.Bundle.Reference`: paths and bare names

A reference is meant to be one of two things.

| the reference                | where it leads                                   |
| :--------------------------- | :----------------------------------------------- |
| has a slash or an extension  | it is a path, and is used as it is               |
| has neither                  | to a file `lib….so` right in the unit folder     |

Which of them it is is told by its components, but the name of the library is made from its text.  So
a name with a slash behind it falls between the two: it has one component, like a bare name, and its
slash goes into the path.

This is `locate` of the `UnitResolver`.
-/
namespace Backplane

variable {c : Char} {s t p name rest : List Char} {ps : List (List Char)} {d r : String}

/-! ## Parts between slashes -/

theorem cutSlashes_slash : cutSlashes ('/' :: t) = [] :: cutSlashes t := by
  rw [cutSlashes]

theorem cutSlashes_cons (hc : c ≠ '/') (h : cutSlashes s = p :: ps) :
    cutSlashes (c :: s) = (c :: p) :: ps := by
  unfold cutSlashes
  rw [h]
  split
  · exact absurd rfl hc
  · next heq =>
      obtain ⟨rfl, rfl⟩ := List.cons.inj heq
      rfl
  · next heq => cases heq

theorem exists_cutSlashes (s : List Char) : ∃ p ps, cutSlashes s = p :: ps := by
  cases s with
  | nil => exact ⟨[], [], rfl⟩
  | cons c s =>
      by_cases hc : c = '/'
      · exact ⟨[], cutSlashes s, hc ▸ cutSlashes_slash⟩
      · obtain ⟨p, ps, h⟩ := exists_cutSlashes s
        exact ⟨c :: p, ps, cutSlashes_cons hc h⟩

theorem cutSlashes_append_slash : cutSlashes (s ++ '/' :: t) = cutSlashes s ++ cutSlashes t := by
  induction s with
  | nil => exact cutSlashes_slash
  | cons c s ih =>
      by_cases hc : c = '/'
      · subst hc
        rw [List.cons_append, cutSlashes_slash, ih, cutSlashes_slash, List.cons_append]
      · obtain ⟨p, ps, h⟩ := exists_cutSlashes s
        rw [h] at ih
        rw [List.cons_append, cutSlashes_cons hc h, cutSlashes_cons hc ih]
        rfl

theorem cutSlashes_of_notMem (h : '/' ∉ s) : cutSlashes s = [s] := by
  induction s with
  | nil => rfl
  | cons c s ih =>
      obtain ⟨hc, hs⟩ := not_or.mp (List.mem_cons.not.mp h)
      exact cutSlashes_cons (Ne.symm hc) (ih hs)

/-- What stands behind the last slash. -/
theorem exists_last (s : List Char) :
    '/' ∉ s ∨ ∃ front last, s = front ++ '/' :: last ∧ '/' ∉ last := by
  by_cases h : '/' ∈ s.reverse
  · obtain ⟨xs, ys, hrev, hxs⟩ := List.eq_append_cons_of_mem h
    refine .inr ⟨ys.reverse, xs.reverse, ?_, by simpa using hxs⟩
    simpa using congrArg List.reverse hrev
  · exact .inl (by simpa using h)

namespace Reference

theorem named_append_slash : named (s ++ '/' :: t) = named s ++ named t := by
  rw [named, cutSlashes_append_slash, List.filter_append]
  rfl

theorem named_of_notMem (h : '/' ∉ s) : named s = if s = [] ∨ s = ['.'] then [] else [s] := by
  rw [named, cutSlashes_of_notMem h]
  by_cases hnil : s = []
  · simp [hnil]
  · by_cases hdot : s = ['.']
    · simp [hdot]
    · simp [hnil, hdot]

theorem named_of_long (h : '/' ∉ s) (hlong : 1 < s.length) : named s = [s] := by
  have hne : ¬ (s = [] ∨ s = ['.']) := by
    rintro (rfl | rfl) <;> simp at hlong
  rw [named_of_notMem h, if_neg hne]

/-- Where a path names nothing, what is written behind it becomes a name, or lengthens the dot that
the path ends in. -/
theorem named_append_of_named_eq_nil (hs : named s = []) (ht : '/' ∉ t) (hlong : 1 < t.length) :
    ∃ last, (last = [] ∨ last = ['.']) ∧ named (s ++ t) = [last ++ t] := by
  have hlast : ∀ last, '/' ∉ last → named last = [] →
      (last = [] ∨ last = ['.']) ∧ named (last ++ t) = [last ++ t] := by
    intro last hslash hnil
    refine ⟨?_, named_of_long (by simp [hslash, ht]) (by rw [List.length_append]; omega)⟩
    by_contra hother
    rw [named_of_notMem hslash, if_neg hother] at hnil
    cases hnil
  rcases exists_last s with hslash | ⟨front, last, rfl, hslash⟩
  · exact ⟨s, hlast s hslash hs⟩
  · rw [named_append_slash, List.append_eq_nil_iff] at hs
    obtain ⟨hdots, hnamed⟩ := hlast last hslash hs.2
    refine ⟨last, hdots, ?_⟩
    rw [List.append_assoc, List.cons_append, named_append_slash, hs.1, hnamed, List.nil_append]

/-! ## What looks like a path -/

/-- Whether a file of a name has an extension. -/
def HasExtension (r : String) : Prop := (fileName? r.toList).any hasExtension = true

instance : DecidablePred HasExtension := fun r =>
  inferInstanceAs (Decidable ((fileName? r.toList).any hasExtension = true))

/-- Whether a reference is written like a path. -/
def PathLike (r : String) : Prop := '/' ∈ r.toList ∨ HasExtension r

instance : DecidablePred PathLike := fun r =>
  inferInstanceAs (Decidable ('/' ∈ r.toList ∨ HasExtension r))

/-- Whether a reference is a name without an extension and, behind a slash, nothing. -/
structure Dangles (r name : String) : Prop where
  one : '/' ∉ name.toList
  plain : ¬ HasExtension name
  nothing : ∃ rest, r = name ++ "/" ++ rest ∧ named rest.toList = []

theorem isPath_of_hasExtension (h : HasExtension r) : isPath r = true := by
  have hext : (fileName? r.toList).any hasExtension = true := h
  simp [isPath, hext]

/-- A text without a slash has one component at most. -/
theorem isPath_of_notMem (h : '/' ∉ r.toList) : isPath r = true ↔ HasExtension r := by
  have hcount : ¬ 1 < componentCount r.toList := by
    have hhead : r.toList.head? ≠ some '/' := fun hr => h (List.mem_of_head? hr)
    rw [componentCount, hasBase, named_of_notMem h, cutSlashes_of_notMem h]
    by_cases hnil : r.toList = [] <;> by_cases hdot : r.toList = ['.'] <;> simp [hnil, hdot, hhead]
  simp [isPath, hcount, HasExtension]

/-- What stands before the first slash is one component: a name, the root or the folder at hand. -/
theorem componentCount_append_slash (h : '/' ∉ name) :
    componentCount (name ++ '/' :: t) = (named t).length + 1 := by
  rw [componentCount, hasBase, named_append_slash, cutSlashes_append_slash, named_of_notMem h,
    cutSlashes_of_notMem h]
  cases name with
  | nil => simp
  | cons c cs =>
      have hc : c ≠ '/' := fun hc => h (hc ▸ List.mem_cons_self)
      by_cases hdot : c :: cs = ['.']
      · simp [hdot]
      · simp [hdot, hc, Nat.add_comm]

theorem isPath_append_slash {name rest : String} (h : '/' ∉ name.toList) :
    isPath (name ++ "/" ++ rest) = true ↔ named rest.toList ≠ [] ∨ HasExtension name := by
  have htext : (name ++ "/" ++ rest).toList = name.toList ++ '/' :: rest.toList := by simp
  rw [isPath, htext, componentCount_append_slash h, fileName?, named_append_slash]
  by_cases hrest : named rest.toList = []
  · simp [hrest, HasExtension, fileName?]
  · have hpos : 0 < (named rest.toList).length := List.length_pos_of_ne_nil hrest
    simp [hrest, hpos]

theorem Dangles.isPath_eq_false {name : String} (h : Dangles r name) : isPath r = false := by
  obtain ⟨rest, rfl, hrest⟩ := h.nothing
  have hnot := mt (isPath_append_slash h.one).mp (not_or.mpr ⟨not_not.mpr hrest, h.plain⟩)
  simpa using hnot

/-- A reference that is written like a path is one, unless its slashes lead nowhere. -/
theorem isPath_iff : isPath r = true ↔ PathLike r ∧ ∀ name, ¬ Dangles r name := by
  constructor
  · intro hpath
    refine ⟨?_, fun name hd => Bool.noConfusion (hd.isPath_eq_false.symm.trans hpath)⟩
    by_cases hslash : '/' ∈ r.toList
    · exact .inl hslash
    · exact .inr ((isPath_of_notMem hslash).mp hpath)
  · rintro ⟨hslash | hext, hnot⟩
    · obtain ⟨xs, ys, hr, hxs⟩ := List.eq_append_cons_of_mem hslash
      have hsplit : r = String.ofList xs ++ "/" ++ String.ofList ys := by
        rw [← String.toList_inj, hr]
        simp
      have hname : '/' ∉ (String.ofList xs).toList := by simpa using hxs
      rw [hsplit, isPath_append_slash hname]
      by_contra hneither
      obtain ⟨hrest, hplain⟩ := not_or.mp hneither
      exact hnot _ ⟨hname, hplain, _, hsplit, not_not.mp hrest⟩
    · exact isPath_of_hasExtension hext

/-! ## Where the library lies -/

theorem nameOf_eq : Folder.nameOf r = Folder.base r ++ (named r.toList).map String.ofList := by
  have hdot (p : List Char) : String.ofList p = "." ↔ p = ['.'] := by
    rw [← String.toList_inj]
    simp
  rw [Folder.nameOf, Folder.components, named, List.filter_map, List.filter_filter]
  refine congrArg (Folder.base r ++ ·.map String.ofList) (List.filter_congr fun p _ => ?_)
  simp [hdot, Bool.and_comm]

/-- The file of a library, in a folder or by itself. -/
theorem named_join {file : String} :
    named (join d file).toList = named d.toList ++ named file.toList := by
  rw [join]
  split_ifs with hempty hslash
  · rw [hempty]
    rfl
  · obtain ⟨s, hs⟩ := List.getLast?_eq_some_iff.mp hslash
    rw [String.toList_append, hs, List.append_assoc, List.cons_append, List.nil_append,
      named_append_slash, named_append_slash]
    simp [named, cutSlashes]
  · rw [String.toList_append, String.toList_append, List.append_assoc]
    exact named_append_slash

theorem base_join : Folder.base (join d (libraryFile r)) = Folder.base d := by
  have hlib : (libraryFile r).toList.head? ≠ some '/' := by simp [libraryFile]
  rw [join]
  split_ifs with hempty hslash
  · simp [Folder.base, hempty, hlib]
  all_goals
    have hne : d.toList ≠ [] := fun hnil => hempty (String.toList_eq_nil_iff.mp hnil)
    simp only [Folder.base, String.toList_append, List.append_assoc,
      List.head?_append_of_ne_nil _ hne]

theorem nameOf_join : Folder.nameOf (join d (libraryFile r)) =
    Folder.nameOf d ++ (named (libraryFile r).toList).map String.ofList := by
  rw [nameOf_eq, nameOf_eq, named_join, base_join, List.map_append, List.append_assoc]

theorem named_libraryFile (h : '/' ∉ r.toList) :
    (named (libraryFile r).toList).map String.ofList = [libraryFile r] := by
  have hslash : '/' ∉ (libraryFile r).toList := by simp [libraryFile, h]
  rw [named_of_long hslash (by simp [libraryFile]), List.map_singleton, String.ofList_toList]

/-- The library of a name with a slash behind it would be in a folder. -/
theorem Dangles.named_libraryFile {name : String} (h : Dangles r name) :
    ∃ file, (file = ".so" ∨ file = "..so") ∧
      (named (libraryFile r).toList).map String.ofList = ["lib" ++ name, file] := by
  obtain ⟨rest, rfl, hrest⟩ := h.nothing
  obtain ⟨last, hlast, hfile⟩ :=
    named_append_of_named_eq_nil (t := ".so".toList) hrest (by decide) (by decide)
  have htext : (libraryFile (name ++ "/" ++ rest)).toList =
      ("lib" ++ name).toList ++ '/' :: (rest.toList ++ ".so".toList) := by
    simp [libraryFile]
  have hfolder : named ("lib" ++ name).toList = [("lib" ++ name).toList] :=
    named_of_long (by simp [h.one]) (by simp)
  refine ⟨String.ofList (last ++ ".so".toList), ?_, ?_⟩
  · rcases hlast with rfl | rfl
    · exact .inl rfl
    · exact .inr rfl
  · rw [htext, named_append_slash, hfolder, hfile, List.singleton_append, List.map_cons,
      List.map_singleton, String.ofList_toList]

theorem locate_of_isPath {folder : Option String} (h : isPath r = true) : locate folder r = r :=
  if_pos h

theorem locate_of_bare (h : isPath r = false) : locate (some d) r = join d (libraryFile r) := by
  simp [locate, h]

/-- What is not used as it is leads elsewhere. -/
theorem locate_ne {folder : Option String} (h : isPath r = false) : locate folder r ≠ r := by
  have hlen : (libraryFile r).length = 3 + r.length + 3 := by
    rw [libraryFile, String.length_append, String.length_append]
    rfl
  have hjoin : ∀ d, (libraryFile r).length ≤ (join d (libraryFile r)).length := by
    intro d
    rw [join]
    split_ifs <;> simp
  intro hsame
  have hlength := congrArg String.length hsame
  cases folder with
  | none =>
      simp only [locate, h] at hlength
      simp at hlength
      omega
  | some d =>
      rw [locate_of_bare h] at hlength
      have := hjoin d
      omega

/-- Whether a reference is used as it is if it is written like a path, and else leads to a file of
its name right in the unit folder. -/
structure Kept (folder : Option String) (r : String) : Prop where
  path : PathLike r → locate folder r = r
  bare : ¬ PathLike r → ∀ d, folder = some d →
    Folder.nameOf (locate folder r) = Folder.nameOf d ++ ["lib" ++ r ++ ".so"]

/-- References are kept unless they are a name with nothing behind its slash.  Such a reference leads
into a folder of the unit folder that it has not named. -/
theorem kept_iff {folder : Option String} : (Kept folder r ↔ ∀ name, ¬ Dangles r name) ∧
    ∀ name, Dangles r name → ∀ d, folder = some d → ∃ file, (file = ".so" ∨ file = "..so") ∧
      Folder.nameOf (locate folder r) = Folder.nameOf d ++ ["lib" ++ name, file] := by
  refine ⟨⟨?_, ?_⟩, ?_⟩
  · intro hkept name hd
    obtain ⟨rest, hr, -⟩ := hd.nothing
    have hslash : '/' ∈ r.toList := by simp [hr]
    exact locate_ne hd.isPath_eq_false (hkept.path (.inl hslash))
  · intro hnot
    refine ⟨fun hlike => locate_of_isPath (isPath_iff.mpr ⟨hlike, hnot⟩), ?_⟩
    rintro hbare d rfl
    have hpath : isPath r = false := by
      rw [Bool.eq_false_iff]
      exact fun h => hbare (isPath_iff.mp h).1
    rw [locate_of_bare hpath, nameOf_join, named_libraryFile fun h => hbare (.inl h)]
    rfl
  · rintro name hd d rfl
    obtain ⟨file, hfile, hnamed⟩ := hd.named_libraryFile
    exact ⟨file, hfile, by rw [locate_of_bare hd.isPath_eq_false, nameOf_join, hnamed]⟩

/-- A bare name leads to its file, and a name with a slash and a dot behind it to a file in a folder
of its own. -/
theorem kept_iff_chat :
    Folder.nameOf (locate (some "/srv/zone/units") "chat") =
      ["/", "srv", "zone", "units", "libchat.so"] ∧
    Dangles "chat/." "chat" ∧ ∃ file, (file = ".so" ∨ file = "..so") ∧
      Folder.nameOf (locate (some "/srv/zone/units") "chat/.") =
        ["/", "srv", "zone", "units", "libchat", file] := by
  have hbare : ∀ name, ¬ Dangles "chat" name := by
    intro name hd
    obtain ⟨rest, hr, -⟩ := hd.nothing
    have hslash : '/' ∈ "chat".toList := by simp [hr]
    simp at hslash
  have hdangles : Dangles "chat/." "chat" := ⟨by decide, by decide, ".", rfl, rfl⟩
  exact ⟨(kept_iff.1.mpr hbare).bare (by decide) _ rfl, hdangles, kept_iff.2 _ hdangles _ rfl⟩

/-- A name with a slash behind it is not used as it is. -/
theorem chat_slash_strays : '/' ∈ "chat/".toList ∧ ¬ Kept (some "/srv/zone/units") "chat/" ∧
    locate (some "/srv/zone/units") "chat/" = "/srv/zone/units/libchat/.so" := by
  refine ⟨by decide, fun hkept => ?_, by decide⟩
  exact absurd (hkept.path (.inl (by decide))) (by decide)

end Reference

end Backplane
