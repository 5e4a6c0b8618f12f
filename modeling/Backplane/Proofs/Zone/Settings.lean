import Backplane.Proofs.Folder
import Backplane.Zone.Settings
/-!
# `Backplane.Proofs.Zone.Settings`: where the settings of a run come from

A run has its configuration from a file that is there and can be read as one, or creates the file
with the defaults.  Each setting is then the one that the arguments give, or else the one that the
file gives, or else the default:

| setting | argument | record | field | default |
| :-- | :-- | :-- | :-- | :-- |
| list of modules | `--modules` | `loader` | `modules_file` | `modules.toml` |
| folder of units | `--units` | `loader` | `unit_directory` | none |
| tries to unload | | `loader` | `unload_attempts` | 5 |
| time between them | | `loader` | `unload_retry_ms` | 500 |
| level of the log | `--log-level` | `logging` | `level` | `info` |
| kind of the log | `--json-logs` | `logging` | `json_format` | plain |

The configuration is the `AppConfig`, the arguments are the `CliArgs`.
-/
namespace Backplane.Zone

open Toml

namespace Settings

variable {f f' : Folder} {path text : String} {es : Entries} {c : CommandLine} {s s' file : Settings}
  {v : Value}

/-! ## What the file says -/

def loaderFields : List String := ["modules_file", "unit_directory", "unload_attempts", "unload_retry_ms"]

def loggingFields : List String := ["level", "json_format"]

/-- What a document says in a field of a record that has the given fields; nothing if the record or
the field is missing. -/
def said? (es : Entries) (record : String) (fields : List String) (field : String) : Option Value :=
  (es.get? record).bind fun v =>
    (fields? fields v).bind fun values => (values[fields.idxOf field]?).join

/-- Whether each setting is the one that the arguments give, or else the one that the document gives,
or else the default. -/
structure Settled (es : Entries) (c : CommandLine) (s : Settings) : Prop where
  modulesFile : s.modulesFile =
    (c.modulesFile.or ((said? es "loader" loaderFields "modules_file").bind text?)).getD "modules.toml"
  unitDirectory : s.unitDirectory =
    c.unitDirectory.or ((said? es "loader" loaderFields "unit_directory").bind text?)
  unloadAttempts : s.unloadAttempts =
    ((said? es "loader" loaderFields "unload_attempts").bind (natBelow? (Nat.pow 2 32))).getD 5
  unloadRetryMs : s.unloadRetryMs =
    ((said? es "loader" loaderFields "unload_retry_ms").bind (natBelow? (Nat.pow 2 64))).getD 500
  level : s.level =
    (c.logLevel.or ((said? es "logging" loggingFields "level").bind text?)).getD "info"
  jsonFormat : s.jsonFormat =
    (c.jsonLogs || ((said? es "logging" loggingFields "json_format").bind boolean?).getD false)

theorem Settled.unique (h : Settled es c s) (h' : Settled es c s') : s = s' := by
  cases s
  cases s'
  simp only [mk.injEq]
  exact ⟨h.modulesFile.trans h'.modulesFile.symm, h.unitDirectory.trans h'.unitDirectory.symm,
    h.unloadAttempts.trans h'.unloadAttempts.symm, h.unloadRetryMs.trans h'.unloadRetryMs.symm,
    h.level.trans h'.level.symm, h.jsonFormat.trans h'.jsonFormat.symm⟩

/-! ## Reading it -/

theorem optionalField_some {α : Type} {read : Value → Option α} {field : Option Value} {x : Option α}
    (h : optionalField read field = some x) : x = field.bind read := by
  cases field with
  | none => exact (Option.some.inj h).symm
  | some v =>
      obtain ⟨y, hy, rfl⟩ := Option.map_eq_some_iff.mp h
      exact hy.symm

theorem withDefault_some {α : Type} {default : α} {read : Value → Option α} {field : Option Value}
    {x : α} (h : withDefault default read field = some x) : x = (field.bind read).getD default := by
  cases field with
  | none => exact (Option.some.inj h).symm
  | some v =>
      have hread : read v = some x := h
      simp [hread]

theorem readLoader?_some (h : s.readLoader? v = some s') : ∃ file directory attempts retry,
    fields? loaderFields v = some [file, directory, attempts, retry] ∧
      file.bind text? = some s'.modulesFile ∧ s'.unitDirectory = directory.bind text? ∧
      s'.unloadAttempts = (attempts.bind (natBelow? (Nat.pow 2 32))).getD 5 ∧
      s'.unloadRetryMs = (retry.bind (natBelow? (Nat.pow 2 64))).getD 500 ∧
      s'.level = s.level ∧ s'.jsonFormat = s.jsonFormat := by
  obtain ⟨values, hvalues, h⟩ := Option.bind_eq_some_iff.mp h
  split at h
  · next file directory attempts retry =>
      simp only [Option.bind_eq_bind, Option.bind_eq_some_iff, Option.some.injEq] at h
      obtain ⟨x, hx, y, hy, n, hn, k, hk, rfl⟩ := h
      exact ⟨file, directory, attempts, retry, hvalues, hx, optionalField_some hy,
        withDefault_some hn, withDefault_some hk, rfl, rfl⟩
  · cases h

theorem readLogging?_some (h : s.readLogging? v = some s') : ∃ level json,
    fields? loggingFields v = some [level, json] ∧ level.bind text? = some s'.level ∧
      s'.jsonFormat = (json.bind boolean?).getD false ∧
      s' = { s with level := s'.level, jsonFormat := s'.jsonFormat } := by
  obtain ⟨values, hvalues, h⟩ := Option.bind_eq_some_iff.mp h
  split at h
  · next level json =>
      simp only [Option.bind_eq_bind, Option.bind_eq_some_iff, Option.some.injEq] at h
      obtain ⟨x, hx, y, hy, rfl⟩ := h
      exact ⟨level, json, hvalues, hx, withDefault_some hy, rfl⟩
  · cases h

/-- What is said in a record is what its fields hold. -/
theorem said?_of_fields {record field : String} {fields : List String} {values : List (Option Value)}
    (hrecord : es.get? record = some v) (hfields : fields? fields v = some values) :
    said? es record fields field = (values[fields.idxOf field]?).join := by
  rw [said?, hrecord, Option.bind_some, hfields, Option.bind_some]

theorem said?_of_none {record field : String} {fields : List String} (h : es.get? record = none) :
    said? es record fields field = none := by
  rw [said?, h, Option.bind_none]

/-- The record on loading settles four settings, and leaves the others at their defaults. -/
theorem settled_loader (h : withDefault {} (readLoader? {}) (es.get? "loader") = some s) :
    s.modulesFile = ((said? es "loader" loaderFields "modules_file").bind text?).getD "modules.toml" ∧
      s.unitDirectory = (said? es "loader" loaderFields "unit_directory").bind text? ∧
      s.unloadAttempts =
        ((said? es "loader" loaderFields "unload_attempts").bind (natBelow? (Nat.pow 2 32))).getD 5 ∧
      s.unloadRetryMs =
        ((said? es "loader" loaderFields "unload_retry_ms").bind (natBelow? (Nat.pow 2 64))).getD 500 ∧
      s.level = "info" ∧ s.jsonFormat = false := by
  cases hrecord : es.get? "loader" with
  | none =>
      rw [hrecord] at h
      obtain rfl := Option.some.inj h
      simp [said?_of_none hrecord]
  | some v =>
      rw [hrecord] at h
      obtain ⟨file, directory, attempts, retry, hfields, hfile, hothers⟩ := readLoader?_some h
      simp only [said?_of_fields hrecord hfields]
      refine ⟨?_, hothers⟩
      show s.modulesFile = (file.bind text?).getD "modules.toml"
      rw [hfile, Option.getD_some]

/-- The record on logging settles the other two. -/
theorem settled_logging (h : withDefault s s.readLogging? (es.get? "logging") = some s')
    (hlevel : s.level = "info") (hjson : s.jsonFormat = false) :
    s'.level = ((said? es "logging" loggingFields "level").bind text?).getD "info" ∧
      s'.jsonFormat = ((said? es "logging" loggingFields "json_format").bind boolean?).getD false ∧
      s' = { s with level := s'.level, jsonFormat := s'.jsonFormat } := by
  cases hrecord : es.get? "logging" with
  | none =>
      rw [hrecord] at h
      obtain rfl := Option.some.inj h
      refine ⟨?_, ?_, rfl⟩
      · simp [said?_of_none hrecord, hlevel]
      · simp [said?_of_none hrecord, hjson]
  | some v =>
      rw [hrecord] at h
      obtain ⟨level, json, hfields, hfile, hothers⟩ := readLogging?_some h
      simp only [said?_of_fields hrecord hfields]
      refine ⟨?_, hothers⟩
      show s'.level = (level.bind text?).getD "info"
      rw [hfile, Option.getD_some]

/-- A text that can be read settles everything, with the arguments in the place of what it says. -/
theorem settled_of_parse? (h : parse? text = some s) (c : CommandLine) :
    ∃ es, Toml.read? text = some es ∧ Settled es c (s.override c) := by
  obtain ⟨es, hes, h⟩ := Option.bind_eq_some_iff.mp h
  obtain ⟨s₀, hloader, hlogging⟩ := Option.bind_eq_some_iff.mp h
  obtain ⟨hfile, hdirectory, hattempts, hretry, hlevel₀, hjson₀⟩ := settled_loader hloader
  obtain ⟨hlevel, hjson, hrest⟩ := settled_logging hlogging hlevel₀ hjson₀
  refine ⟨es, hes, ?_, ?_, ?_, ?_, ?_, ?_⟩
  · show c.modulesFile.getD s.modulesFile = _
    rw [Option.getD_or, ← hfile, hrest]
  · show c.unitDirectory.or s.unitDirectory = _
    rw [← hdirectory, hrest]
  · show s.unloadAttempts = _
    rw [← hattempts, hrest]
  · show s.unloadRetryMs = _
    rw [← hretry, hrest]
  · show c.logLevel.getD s.level = _
    rw [Option.getD_or, ← hlevel]
  · show (c.jsonLogs || s.jsonFormat) = _
    rw [← hjson]

/-! ## Checking -/

/-- Whether a run can go on with its settings. -/
structure Admissible (s : Settings) : Prop where
  modulesFile : s.modulesFile ≠ ""
  unitDirectory : s.unitDirectory ≠ some ""
  unloadAttempts : 1 ≤ s.unloadAttempts
  level : ∃ l : Level, s.level = l.word

theorem isSome_ofWord? {word : String} : (Level.ofWord? word).isSome ↔ ∃ l : Level, word = l.word := by
  constructor
  · intro h
    obtain ⟨l, hl⟩ := Option.isSome_iff_exists.mp h
    rw [Level.ofWord?] at hl
    have hword : l.word = word := by simpa using List.find?_some hl
    exact ⟨l, hword.symm⟩
  · rintro ⟨l, rfl⟩
    rw [Level.ofWord?_word]
    rfl

/-- Just the settings without a flaw are admissible. -/
theorem flaw?_eq_none : s.flaw? = none ↔ s.Admissible := by
  have hlevel : (Level.ofWord? s.level).isNone ↔ ¬ ∃ l : Level, s.level = l.word := by
    rw [← isSome_ofWord?, Option.not_isSome_iff_eq_none, Option.isNone_iff_eq_none]
  rw [flaw?]
  constructor
  · intro h
    split at h
    · cases h
    split at h
    · cases h
    split at h
    · cases h
    split at h
    · cases h
    next hfile hdirectory hattempts hword =>
      exact ⟨hfile, hdirectory, Nat.one_le_iff_ne_zero.mpr hattempts,
        Classical.not_not.mp fun hnone => hword (hlevel.mpr hnone)⟩
  · rintro ⟨hfile, hdirectory, hattempts, hword⟩
    rw [if_neg hfile, if_neg hdirectory, if_neg (Nat.one_le_iff_ne_zero.mp hattempts),
      if_neg fun hnone => hlevel.mp hnone hword]

/-! ## Finding the file, or creating it -/

/-- How a configuration is had: what its document says, and the folder then. -/
inductive Found (f : Folder) (path : String) : Entries → Folder → Prop
  /-- The file is there, and can be read as a configuration. -/
  | present {text : String} {es : Entries} {s : Settings} (hthere : f.holds path = .ok true)
      (htext : readText f path = .ok text) (hes : Toml.read? text = some es)
      (hs : parse? text = some s) : Found f path es f
  /-- The file is missing, and can be created.  Then nobody has said anything. -/
  | created {f' : Folder} (hmissing : f.holds path = .ok false)
      (hwrite : f.write path defaultText.toUTF8 = .ok f') : Found f path [] f'

theorem settled_default : Settled [] c (override {} c) := by
  refine ⟨?_, ?_, rfl, rfl, ?_, ?_⟩
  · show c.modulesFile.getD "modules.toml" = (c.modulesFile.or none).getD "modules.toml"
    rw [Option.or_none]
  · rfl
  · show c.logLevel.getD "info" = (c.logLevel.or none).getD "info"
    rw [Option.or_none]
  · rfl

/-- What is loaded has been found, and the arguments settle what it does not say. -/
theorem found_of_load {l : Loaded} (h : load f path = .ok l) (c : CommandLine) :
    ∃ es, Found f path es l.folder ∧ Settled es c (l.settings.override c) := by
  rw [load] at h
  cases hholds : f.holds path with
  | error fault =>
      rw [hholds] at h
      cases h
  | ok there =>
      rw [hholds] at h
      cases there with
      | false =>
          cases hwrite : f.write path defaultText.toUTF8 with
          | error fault =>
              rw [hwrite] at h
              cases h
          | ok f' =>
              rw [hwrite] at h
              cases h
              exact ⟨[], .created hholds hwrite, settled_default⟩
      | true =>
          cases htext : readText f path with
          | error fault =>
              rw [htext] at h
              cases h
          | ok text =>
              rw [htext] at h
              simp only at h
              cases hs : parse? text with
              | none =>
                  rw [hs] at h
                  cases h
              | some s =>
                  rw [hs] at h
                  cases h
                  obtain ⟨es, hes, hsettled⟩ := settled_of_parse? hs c
                  exact ⟨es, .present hholds htext hes hs, hsettled⟩

/-- What is to be found is loaded. -/
theorem Found.load (h : Found f path es f') (hs : Settled es c s) :
    ∃ l, Settings.load f path = .ok l ∧ l.folder = f' ∧ l.settings.override c = s := by
  cases h with
  | @present text es file hthere htext hes hparse =>
      obtain ⟨es', hes', hsettled⟩ := settled_of_parse? hparse c
      obtain rfl : es = es' := Option.some.inj (hes.symm.trans hes')
      refine ⟨⟨file, false, f⟩, ?_, rfl, hsettled.unique hs⟩
      rw [Settings.load, hthere]
      simp only [htext, hparse]
  | created hmissing hwrite =>
      refine ⟨⟨{}, true, f'⟩, ?_, rfl, settled_default.unique hs⟩
      rw [Settings.load, hmissing]
      simp only [hwrite]

/-! ## A file that was created -/

/-- The text of a configuration that is created says the defaults. -/
theorem parse?_defaultText : parse? defaultText = some {} := by decide +kernel

/-- A text that stands in a file is read as it is. -/
theorem readText_of_read (h : f.read path = .ok text.toUTF8) : readText f path = .ok text := by
  have hvalid : text.toUTF8.IsValidUTF8 := text.isValidUTF8
  rw [readText, h, Except.bind, textOf, String.fromUTF8?, dif_pos hvalid]
  rfl

/-- A configuration that has been created is there from then on, with the defaults in it. -/
theorem load_created (hcreates : f.Creates path defaultText.toUTF8 f') :
    Settings.load f' path = .ok ⟨{}, false, f'⟩ := by
  have hthere : f'.holds path = .ok true := Folder.holds_of_read hcreates.read
  have htext : readText f' path = .ok defaultText := readText_of_read hcreates.read
  rw [Settings.load, hthere]
  simp only [htext, parse?_defaultText]

end Settings

end Backplane.Zone
