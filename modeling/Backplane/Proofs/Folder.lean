import Backplane.Folder
/-!
# `Backplane.Proofs.Folder`: creating files

A file that is written where nothing was stands there afterwards, and every other file is what it
was.  The path still leads to the place: what was a folder on the way is one still, and no file has
come to stand in the way, since the only new one is at the end.

It is how an `AppConfig` with the defaults comes to be there.
-/
namespace Backplane.Folder

variable {f f' : Folder} {name other here ps : List String} {content : ByteArray} {path p : String}

/-! ## Adding a file -/

theorem find?_put_self : (f.put name content).find? name = some content := by
  have hnone : (f.files.filter fun x => x.1 ≠ name).find? (fun x => x.1 = name) = none := by
    rw [List.find?_eq_none]
    intro x hx
    simpa using (List.mem_filter.mp hx).2
  simp only [find?, put, List.find?_append, hnone]
  simp

theorem find?_put_of_ne (h : other ≠ name) :
    (f.put name content).find? other = f.find? other := by
  have hsame : (f.files.filter fun x => x.1 ≠ name).find? (fun x => x.1 = other) =
      f.files.find? fun x => x.1 = other := by
    rw [List.find?_filter]
    refine congrArg (List.find? · f.files) (funext fun x => ?_)
    by_cases hx : x.1 = other
    · simp [hx, h]
    · simp [hx]
  have hnew : ([(name, content)] : List (List String × ByteArray)).find? (fun x => x.1 = other) =
      none := by
    simpa using Ne.symm h
  simp only [find?, put, List.find?_append, hsame, hnew, Option.or_none]

/-- A folder is a folder still when a file is added. -/
theorem isFolder_put (hnew : f.find? name = none) (h : f.isFolder other = true) :
    (f.put name content).isFolder other = true := by
  obtain ⟨x, hx, hinside⟩ := List.any_eq_true.mp h
  have hne : x.1 ≠ name := by
    intro heq
    have hfound : (f.files.find? fun x => x.1 = name).isSome := by
      rw [List.find?_isSome]
      exact ⟨x, hx, decide_eq_true heq⟩
    rw [find?, Option.map_eq_none_iff] at hnew
    simp [hnew] at hfound
  refine List.any_eq_true.mpr ⟨x, ?_, hinside⟩
  exact List.mem_append_left _ (List.mem_filter.mpr ⟨hx, decide_eq_true hne⟩)

/-! ## Following a path -/

/-- Whether a component names something in a folder. -/
structure Names (p : String) : Prop where
  notHere : p ≠ "."
  notAbove : p ≠ ".."
  short : ¬ longestName < p.utf8ByteSize

/-- How components lead from a folder to a place where nothing is. -/
inductive LeadsTo (f : Folder) (name : List String) : List String → List String → Prop
  | stay {here ps : List String} (h : LeadsTo f name here ps) : LeadsTo f name here ("." :: ps)
  | up {here ps : List String} (h : LeadsTo f name (above here) ps) :
      LeadsTo f name here (".." :: ps)
  | down {here ps : List String} {p : String} (hp : Names p)
      (hnone : f.find? (here ++ [p]) = none) (hfolder : f.isFolder (here ++ [p]) = true)
      (h : LeadsTo f name (here ++ [p]) ps) : LeadsTo f name here (p :: ps)
  | arrive {here : List String} {p : String} (hp : Names p) (hnone : f.find? (here ++ [p]) = none)
      (hvacant : f.isFolder (here ++ [p]) = false) (hname : name = here ++ [p]) :
      LeadsTo f name here [p]

theorem Names.walk_cons (hp : Names p) : f.walk here (p :: ps) = match f.find? (here ++ [p]) with
    | some content => .ok (if ps.isEmpty then .file (here ++ [p]) content else .blocked)
    | none =>
      if f.isFolder (here ++ [p]) then f.walk (here ++ [p]) ps
      else .ok (if ps.isEmpty then .vacant (here ++ [p]) else .nowhere) := by
  rw [walk]
  refine (if_neg hp.notHere).trans ((if_neg hp.notAbove).trans ((if_neg hp.short).trans ?_))
  rfl

theorem leadsTo_of_walk (h : f.walk here ps = .ok (.vacant name)) : LeadsTo f name here ps := by
  induction ps generalizing here with
  | nil =>
      rw [walk] at h
      cases h
  | cons p ps ih =>
      by_cases hdot : p = "."
      · rw [walk, if_pos hdot] at h
        rw [hdot]
        exact .stay (ih h)
      by_cases hup : p = ".."
      · rw [walk, if_neg hdot, if_pos hup] at h
        rw [hup]
        exact .up (ih h)
      by_cases hlong : longestName < p.utf8ByteSize
      · rw [walk, if_neg hdot, if_neg hup, if_pos hlong] at h
        cases h
      have hp : Names p := ⟨hdot, hup, hlong⟩
      rw [hp.walk_cons] at h
      cases hfind : f.find? (here ++ [p]) with
      | some found =>
          rw [hfind] at h
          simp only at h
          split at h <;> cases h
      | none =>
          rw [hfind] at h
          simp only at h
          cases hfolder : f.isFolder (here ++ [p]) with
          | true =>
              rw [hfolder, if_pos rfl] at h
              exact .down hp hfind hfolder (ih h)
          | false =>
              rw [hfolder] at h
              cases ps with
              | nil =>
                  cases h
                  exact .arrive hp hfind hfolder rfl
              | cons q ps => cases h

/-- Nothing stands in such a place. -/
theorem LeadsTo.vacant (h : LeadsTo f name here ps) :
    f.find? name = none ∧ f.isFolder name = false := by
  induction h with
  | stay _ ih => exact ih
  | up _ ih => exact ih
  | down _ _ _ _ ih => exact ih
  | arrive _ hnone hvacant hname =>
      rw [hname]
      exact ⟨hnone, hvacant⟩

/-- The components that led to the place lead to the file that is put there. -/
theorem LeadsTo.walk_put (h : LeadsTo f name here ps) (content : ByteArray) :
    (f.put name content).walk here ps = .ok (.file name content) := by
  obtain ⟨hnew, hvacant⟩ := h.vacant
  induction h with
  | stay _ ih =>
      rw [walk, if_pos rfl]
      exact ih
  | up _ ih =>
      have hne : ".." ≠ "." := by decide
      rw [walk, if_neg hne, if_pos rfl]
      exact ih
  | @down here ps p hp hnone hfolder _ ih =>
      -- a folder on the way is not the place where the file is put
      have hne : here ++ [p] ≠ name := by
        intro heq
        rw [heq, hvacant] at hfolder
        exact Bool.noConfusion hfolder
      rw [hp.walk_cons, find?_put_of_ne hne, hnone]
      simp only
      rw [if_pos (isFolder_put hnew hfolder)]
      exact ih
  | arrive hp _ _ hname =>
      rw [hp.walk_cons, ← hname, find?_put_self]
      rfl

/-- Whether a text is a path at all. -/
structure IsPath (path : String) : Prop where
  plain : ¬ path.toList.contains '\x00'
  solid : path ≠ ""
  short : ¬ pathLimit ≤ path.utf8ByteSize

theorem IsPath.look_file (hpath : IsPath path) (hfile : namesFolder path = false)
    (hwalk : f.walk (base path) (components path) = .ok (.file name content)) :
    f.look path = .ok (.file name content) := by
  rw [look, if_neg hpath.plain, if_neg hpath.solid, if_neg hpath.short, hwalk]
  simp [Except.map, hfile]

/-- Nothing stands at a path only if its components lead to a vacant place. -/
theorem isPath_of_vacant (h : f.look path = .ok (.vacant name)) :
    IsPath path ∧ LeadsTo f name (base path) (components path) := by
  have hpath : IsPath path := by
    rw [look] at h
    split at h
    · cases h
    split at h
    · cases h
    split at h
    · cases h
    next hplain hsolid hshort => exact ⟨hplain, hsolid, hshort⟩
  refine ⟨hpath, leadsTo_of_walk ?_⟩
  rw [look, if_neg hpath.plain, if_neg hpath.solid, if_neg hpath.short] at h
  cases hwalk : f.walk (base path) (components path) with
  | error fault =>
      rw [hwalk] at h
      cases h
  | ok place =>
      rw [hwalk] at h
      cases place with
      | vacant other => exact h
      | file other found =>
          simp only [Except.map] at h
          split at h <;> cases h
      | _ => cases h

theorem look_put (h : f.look path = .ok (.vacant name)) (hfile : namesFolder path = false) :
    (f.put name content).look path = .ok (.file name content) := by
  obtain ⟨hpath, hleads⟩ := isPath_of_vacant h
  exact hpath.look_file hfile (hleads.walk_put content)

/-! ## Creating -/

/-- A file that can be read is there. -/
theorem holds_of_read (h : f.read path = .ok content) : f.holds path = .ok true := by
  rw [read] at h
  rw [holds]
  cases hlook : f.look path with
  | error fault =>
      rw [hlook] at h
      cases h
  | ok place =>
      rw [hlook] at h
      cases place with
      | file name found => rfl
      | _ => cases h

/-- What becomes of a folder when a file is created in it. -/
structure Creates (f : Folder) (path : String) (content : ByteArray) (f' : Folder) : Prop where
  read : f'.read path = .ok content
  /-- There was nothing before where the file is, and every other file is what it was. -/
  alone : ∃ name, f.find? name = none ∧ f'.find? name = some content ∧
    ∀ other, other ≠ name → f'.find? other = f.find? other

/-- To write where nothing is is to create a file. -/
theorem creates_of_write (hmissing : f.holds path = .ok false)
    (h : f.write path content = .ok f') : f.Creates path content f' := by
  rw [holds] at hmissing
  rw [write] at h
  cases hlook : f.look path with
  | error fault =>
      rw [hlook] at h
      cases h
  | ok place =>
      rw [hlook] at h hmissing
      cases place with
      | vacant name =>
          simp only [bind, Except.bind] at h
          cases hfile : namesFolder path with
          | true =>
              rw [hfile] at h
              cases h
          | false =>
              rw [hfile] at h
              cases h
              have hnew := (isPath_of_vacant hlook).2.vacant.1
              refine ⟨?_, name, hnew, find?_put_self, fun other hne => find?_put_of_ne hne⟩
              rw [read, look_put hlook hfile]
              rfl
      | nowhere => cases h
      | blocked => cases h
      | folder => cases hmissing
      | file name found => cases hmissing

end Backplane.Folder
