import Backplane.Proofs.Bundle.Depot
/-!
# `Backplane.Proofs.Bundle.Opening`: a unit is opened once for each reference

A depot is asked for one reference after another.

| what is asked for                     | what comes of it                                  |
| :------------------------------------ | :------------------------------------------------ |
| nothing in particular, or `builtin`   | the built-in unit                                 |
| a reference that has been resolved    | the same unit again                               |
| another whose library can be opened   | a new unit, whatever units that library has given |
| any other                             | an error, and nothing changes                     |

What a depot has for a reference it never gives up, and what it opens gets a number that no unit has
had.  Opening a library may come to anything, as long as it comes to the same for the same path: opening
it again would yield the same bundle, as another unit.

The depot is the `UnitResolver`, the units are its `ResolvedUnit`s.
-/
namespace Backplane.Depot

variable {d : Depot} {a b : Option String} {as : List (Option String)} {r : String}
  {u v : ResolvedUnit} {e : PlanError} {f : Finding} {x : Except PlanError ResolvedUnit × Depot}
  {i j : Nat}

/-- The references that a finding has opened a library for. -/
def newly : Finding → List String
  | .opened u _ => [u.reference]
  | .known _ => []
  | .failed _ _ => []

/-! ## One reference -/

/-- What is known is found without opening anything. -/
theorem resolve_known (h : d.known? a = some u) : d.resolve a = (.ok u, d) := by
  have hres := d.resolves a
  generalize d.find a = f, d.resolve a = x at hres
  cases hres with
  | known hu => rw [Option.some.inj (hu.symm.trans h)]
  | opened hu => cases hu.symm.trans h
  | failed hu => cases hu.symm.trans h

namespace Resolves

/-- What a depot has for a reference stays. -/
theorem keeps (h : d.Resolves a f x) (hb : d.known? b = some v) : x.2.known? b = some v := by
  cases h with
  | known => exact hb
  | failed => exact hb
  | opened => rw [known?_keep, hb, Option.some_or]

/-- What has been found is there from then on. -/
theorem found (h : d.Resolves a f x) (hx : x.1 = .ok u) : x.2.known? a = some u := by
  cases h with
  | known hu => exact Except.ok.inj hx ▸ hu
  | failed => cases hx
  | opened hnone hr =>
      obtain rfl := Except.ok.inj hx
      rw [known?_keep, hnone, Option.none_or, if_pos hr]

/-- What has become known is what was asked for. -/
theorem of_new (h : d.Resolves a f x) (hold : d.known? b = none) (hnew : x.2.known? b = some v) :
    label a = label b ∧ x.1 = .ok v := by
  cases h with
  | known => cases hold.symm.trans hnew
  | failed => cases hold.symm.trans hnew
  | opened hnone hr =>
      rw [known?_keep, hold, Option.none_or] at hnew
      split_ifs at hnew with hlabel
      obtain rfl := Option.some.inj hnew
      exact ⟨hr.symm.trans hlabel, rfl⟩

theorem unchanged (h : d.Resolves a f x) (hx : x.1 = .error e) : x.2 = d := by
  cases h with
  | known => cases hx
  | opened => cases hx
  | failed => rfl

theorem map_opened (h : d.Resolves a f x) :
    x.2.opened.map (·.1) = d.opened.map (·.1) ++ newly f := by
  cases h with
  | known => simp [newly]
  | failed => simp [newly]
  | opened => simp [keep, newly]

end Resolves

/-- Whether the units of a depot are numbered in the order of opening, each kept by the reference
that it was opened for, with one unit for a reference. -/
structure Numbered (d : Depot) : Prop where
  keys : (d.opened.map (·.1)).Nodup
  reference : ∀ y ∈ d.opened, y.2.reference = y.1 ∧ y.1 ≠ builtinName
  serial : ∀ i y, d.opened[i]? = some y → y.2.serial = i + 1

theorem numbered_new (hd : d.opened = []) : d.Numbered := by
  refine ⟨?_, ?_, ?_⟩ <;> simp [hd]

theorem Resolves.numbered (h : d.Resolves a f x) (hd : d.Numbered) : x.2.Numbered := by
  cases h with
  | known => exact hd
  | failed => exact hd
  | @opened u path hu hr hf hs =>
      rw [known?] at hu
      split_ifs at hu with hbuiltin
      have hnew : u.reference ∉ d.opened.map (·.1) := hr ▸ Keyed.get?_eq_none_iff.mp hu
      refine ⟨?_, ?_, ?_⟩
      · simpa [keep] using hd.keys.concat hnew
      · intro y hy
        rcases List.mem_append.mp hy with hy | hy
        · exact hd.reference y hy
        · rw [List.mem_singleton.mp hy]
          exact ⟨rfl, hr ▸ hbuiltin⟩
      · intro i y hy
        have hget : (d.opened ++ [(u.reference, u)])[i]? = some y := hy
        rcases Nat.lt_trichotomy i d.opened.length with hlt | rfl | hgt
        · exact hd.serial i y (by rwa [List.getElem?_append_left hlt] at hget)
        · rw [List.getElem?_concat_length, Option.some.injEq] at hget
          exact hget ▸ hs
        · rw [List.getElem?_eq_none (by simpa using Nat.succ_le_of_lt hgt)] at hget
          cases hget

/-- What is known is the built-in unit, or has a place among those that were opened. -/
theorem known?_cases (h : d.known? a = some u) :
    label a = builtinName ∧ u = d.builtinUnit ∨
      label a ≠ builtinName ∧ ∃ i : Nat, d.opened[i]? = some (label a, u) := by
  rw [known?] at h
  split_ifs at h with hbuiltin
  · exact .inl ⟨hbuiltin, (Option.some.inj h).symm⟩
  · exact .inr ⟨hbuiltin, List.mem_iff_getElem?.mp (Keyed.mem_of_get? h)⟩

theorem Numbered.reference_eq (hd : d.Numbered) (h : d.known? a = some u) :
    u.reference = label a := by
  rcases known?_cases h with ⟨hbuiltin, rfl⟩ | ⟨-, i, hi⟩
  · exact hbuiltin.symm
  · exact (hd.reference _ (List.mem_of_getElem? hi)).1

/-- Units of two references have two numbers. -/
theorem Numbered.label_inj (hd : d.Numbered) (hu : d.known? a = some u) (hv : d.known? b = some v)
    (h : u.serial = v.serial) : label a = label b := by
  rcases known?_cases hu with ⟨ha, rfl⟩ | ⟨-, i, hi⟩ <;>
    rcases known?_cases hv with ⟨hb, rfl⟩ | ⟨-, j, hj⟩
  · exact ha.trans hb.symm
  · rw [hd.serial j _ hj] at h
    cases h
  · rw [hd.serial i _ hi] at h
    cases h
  · rw [hd.serial i _ hi, hd.serial j _ hj] at h
    obtain rfl := Nat.succ.inj h
    exact congrArg Prod.fst (Option.some.inj (hi.symm.trans hj))

/-! ## One reference after another -/

/-- What comes of resolving references one after another. -/
def answers (d : Depot) : List (Option String) → List (Except PlanError ResolvedUnit)
  | [] => []
  | a :: as => (d.resolve a).1 :: (d.resolve a).2.answers as

/-- The depot after references have been resolved one after another. -/
def after (d : Depot) (as : List (Option String)) : Depot := as.foldl (fun d a => (d.resolve a).2) d

/-- The references whose libraries are opened while references are resolved one after another. -/
def openings (d : Depot) : List (Option String) → List String
  | [] => []
  | a :: as => newly (d.find a) ++ (d.resolve a).2.openings as

theorem after_keeps (h : d.known? b = some v) : (d.after as).known? b = some v := by
  induction as generalizing d with
  | nil => exact h
  | cons a as ih => exact ih ((d.resolves a).keeps h)

theorem Numbered.after (hd : d.Numbered) : (d.after as).Numbered := by
  induction as generalizing d with
  | nil => exact hd
  | cons a as ih => exact ih ((d.resolves a).numbered hd)

theorem origin_after : (d.after as).origin b = d.origin b := by
  induction as generalizing d with
  | nil => rfl
  | cons a as ih => exact ih.trans origin_resolve

theorem map_opened_after : (d.after as).opened.map (·.1) = d.opened.map (·.1) ++ d.openings as := by
  induction as generalizing d with
  | nil => simp [after, openings]
  | cons a as ih =>
      show ((d.resolve a).2.after as).opened.map (·.1) = _
      rw [ih, (d.resolves a).map_opened, openings, List.append_assoc]

theorem after_append {bs : List (Option String)} : d.after (as ++ bs) = (d.after as).after bs :=
  List.foldl_append

theorem after_take_succ (ha : as[i]? = some a) :
    d.after (as.take (i + 1)) = ((d.after (as.take i)).resolve a).2 := by
  rw [List.take_add_one, ha, after_append]
  rfl

/-- Whether the `i`-th query is for a reference and has an answer. -/
def Yields (d : Depot) (as : List (Option String)) (i : Nat) (a : Option String)
    (x : Except PlanError ResolvedUnit) : Prop :=
  as[i]? = some a ∧ (d.answers as)[i]? = some x

/-- A query is answered by the depot as it is then. -/
theorem yields_iff {y : Except PlanError ResolvedUnit} (ha : as[i]? = some a) :
    d.Yields as i a y ↔ ((d.after (as.take i)).resolve a).1 = y := by
  rw [Yields, and_iff_right ha]
  induction as generalizing d i with
  | nil => simp at ha
  | cons b as ih =>
      cases i with
      | zero =>
          obtain rfl := Option.some.inj ha
          exact Option.some_inj
      | succ i => exact ih ha

/-- What has been found is there from then on. -/
theorem Yields.known? (h : d.Yields as i a (.ok u)) (hij : i < j) :
    (d.after (as.take j)).known? a = some u := by
  obtain ⟨k, rfl⟩ := Nat.exists_eq_add_of_le (Nat.succ_le_of_lt hij)
  rw [List.take_add, after_append, after_take_succ h.1]
  exact after_keeps (((d.after (as.take i)).resolves a).found ((yields_iff h.1).mp h))

/-- What is known in the end and was not in the beginning has been asked for. -/
theorem exists_yields (h : (d.after as).known? b = some v) (hnew : d.known? b = none) :
    ∃ i a, label a = label b ∧ d.Yields as i a (.ok v) := by
  induction as generalizing d with
  | nil => cases hnew.symm.trans h
  | cons a as ih =>
      cases hnext : (d.resolve a).2.known? b with
      | none =>
          obtain ⟨i, c, hlabel, hyields⟩ := ih h hnext
          exact ⟨i + 1, c, hlabel, hyields⟩
      | some w =>
          obtain rfl : w = v := Option.some.inj ((after_keeps hnext).symm.trans h)
          obtain ⟨hlabel, hok⟩ := (d.resolves a).of_new hnew hnext
          exact ⟨0, a, hlabel, rfl, congrArg some hok⟩

/-- Without a query that fails all others are answered alike. -/
theorem answers_eraseIdx (h : d.Yields as i a (.error e)) :
    d.answers (as.eraseIdx i) = (d.answers as).eraseIdx i := by
  induction as generalizing d i with
  | nil => simp [Yields] at h
  | cons b as ih =>
      cases i with
      | zero =>
          have hsame : (d.resolve b).2 = d := (d.resolves b).unchanged (Option.some.inj h.2)
          show d.answers as = (d.resolve b).2.answers as
          rw [hsame]
      | succ i => exact congrArg ((d.resolve b).1 :: ·) (ih h)

/-! ## The whole -/

/-- How a depot answers queries made one after another. -/
structure OpensOnce (d : Depot) (as : List (Option String)) : Prop where
  builtin : ∀ (i : Nat) (a : Option String), as[i]? = some a → a = none ∨ a = some builtinName →
    d.Yields as i a (.ok d.builtinUnit)
  /-- What has resolved once resolves to the same unit ever after. -/
  again : ∀ i j a u, d.Yields as i a (.ok u) → i < j → as[j]? = some a → d.Yields as j a (.ok u)
  /-- Units are the same only if the references are. -/
  apart : ∀ i j a b u v, d.Yields as i a (.ok u) → d.Yields as j b (.ok v) →
    u.serial = v.serial → label a = label b
  /-- A query that fails changes nothing, so all others are answered as if it had not been made. -/
  refused : ∀ i a e, d.Yields as i a (.error e) →
    d.after (as.take (i + 1)) = d.after (as.take i) ∧
    d.answers (as.eraseIdx i) = (d.answers as).eraseIdx i
  reported : ∀ i a u, d.Yields as i a (.ok u) → u.reference = label a
  /-- But for its number, what another reference comes to is what is at the path of its library. -/
  library : ∀ (i : Nat) (r : String), as[i]? = some (some r) → r ≠ builtinName →
    ∃ x, d.Yields as i (some r) x ∧ x.map ResolvedUnit.origin = d.fresh r
  /-- No library is opened twice for one reference, and one is for each that resolves. -/
  once : (d.openings as).Nodup ∧
    ∀ r, r ∈ d.openings as ↔ r ≠ builtinName ∧ ∃ i u, d.Yields as i (some r) (.ok u)

theorem known?_new (hd : d.opened = []) (hr : r ≠ builtinName) : d.known? (some r) = none := by
  rw [known?_some hr, hd]
  rfl

theorem origin_new (hd : d.opened = []) (hr : r ≠ builtinName) : d.origin (some r) = d.fresh r := by
  rw [origin_eq, known?_new hd hr]
  rfl

theorem map_opened_new (hd : d.opened = []) : (d.after as).opened.map (·.1) = d.openings as := by
  rw [map_opened_after, hd, List.map_nil, List.nil_append]

theorem mem_openings (hd : d.opened = []) :
    r ∈ d.openings as ↔ r ≠ builtinName ∧ ∃ i u, d.Yields as i (some r) (.ok u) := by
  rw [← map_opened_new hd]
  constructor
  · intro hr
    obtain ⟨y, hy, rfl⟩ := List.mem_map.mp hr
    have hne : y.1 ≠ builtinName := ((numbered_new hd).after.reference y hy).2
    obtain ⟨v, hv⟩ := Option.ne_none_iff_exists'.mp (mt Keyed.get?_eq_none_iff.mp (not_not.mpr hr))
    have hknown : (d.after as).known? (some y.1) = some v := (known?_some hne).trans hv
    obtain ⟨i, a, hlabel, h⟩ := exists_yields hknown (known?_new hd hne)
    refine ⟨hne, i, v, ?_⟩
    cases a with
    | none => exact absurd hlabel.symm hne
    | some s =>
        obtain rfl : s = y.1 := hlabel
        exact h
  · rintro ⟨hne, i, u, h⟩
    have hlt : i < as.length := (List.getElem?_eq_some_iff.mp h.1).1
    have hknown := h.known? hlt
    rw [List.take_length, known?] at hknown
    split_ifs at hknown with hbuiltin
    · exact absurd hbuiltin hne
    · exact List.mem_map_of_mem (Keyed.mem_of_get? hknown)

/-- Every depot that has opened nothing yet opens a unit once for each reference, whatever it is asked
for, in whatever order. -/
theorem opens_once (hd : d.opened = []) (as : List (Option String)) : d.OpensOnce as where
  builtin := by
    intro i a ha hbuiltin
    have hlabel : label a = builtinName := by rcases hbuiltin with rfl | rfl <;> rfl
    have hknown : d.known? a = some d.builtinUnit := if_pos hlabel
    exact (yields_iff ha).mpr (congrArg Prod.fst (resolve_known (after_keeps hknown)))
  again := by
    intro i j a u h hij ha
    exact (yields_iff ha).mpr (congrArg Prod.fst (resolve_known (h.known? hij)))
  apart := by
    intro i j a b u v hu hv hserial
    have hnumbered : (d.after (as.take (i + j + 1))).Numbered := (numbered_new hd).after
    exact hnumbered.label_inj (hu.known? (by omega)) (hv.known? (by omega)) hserial
  refused := by
    intro i a e h
    refine ⟨?_, answers_eraseIdx h⟩
    rw [after_take_succ h.1]
    exact ((d.after (as.take i)).resolves a).unchanged ((yields_iff h.1).mp h)
  reported := by
    intro i a u h
    have hnumbered : (d.after (as.take (i + 1))).Numbered := (numbered_new hd).after
    exact hnumbered.reference_eq (h.known? (Nat.lt_succ_self i))
  library := by
    intro i r ha hr
    refine ⟨((d.after (as.take i)).resolve (some r)).1, (yields_iff ha).mpr rfl, ?_⟩
    exact origin_after.trans (origin_new hd hr)
  once := ⟨map_opened_new hd ▸ (numbered_new hd).after.keys, fun _ => mem_openings hd⟩

/-- A depot with a folder of two files, one of which is a library, and with another library that is
found wherever libraries are searched for. -/
def harbour : Depot where
  builtin := .ofList "core" []
  shelf :=
    { folder := .ofFiles [("units/libchat.so", .empty), ("units/libjunk.so", .empty)]
      libraries := [(["units", "libchat.so"], .ok (.ofList "chat" []))] }
  opener := fun shelf path =>
    if path = "libtide.so" then .ok (.ofList "tide" []) else shelf.load path
  folder := some "units"

/-- Queries for the library in the folder by three references, for the built-in unit, for what is no
unit, and for the other library. -/
def voyage : List (Option String) :=
  [none, some "chat", some "junk", some "units/libchat.so", some "chat", some "./units/libchat.so",
    some "builtin", some "libtide.so", some "units/libchat.so"]

theorem opens_once_harbour : harbour.opened = [] ∧
    (harbour.answers voyage).map (·.toOption.map (·.serial)) =
      [some 0, some 1, none, some 2, some 1, some 3, some 0, some 4, some 2] ∧
    harbour.OpensOnce voyage := by
  exact ⟨rfl, rfl, opens_once rfl voyage⟩

end Backplane.Depot
