import Backplane.Folder
import Backplane.Log
import Backplane.Text.Quoted
import Backplane.Toml.Document
import Backplane.Toml.Field
import Backplane.Zone.CommandLine
/-!
# `Backplane.Zone.Settings`: the configuration of the host

The configuration is a file with two records, one on loading and one on logging, each of which may
be missing.  A file that is not there is created with the defaults.  Arguments override what the
file says.

`Settings` models the `AppConfig`, with `LoaderSettings`, `LoggingSettings`, `apply_cli` and
`validate`.
-/
namespace Backplane.Zone

open Toml

structure Settings where
  modulesFile : String := "modules.toml"
  /-- Where the libraries of units with bare names lie. -/
  unitDirectory : Option String := none
  unloadAttempts : Nat := 5
  unloadRetryMs : Nat := 500
  level : String := "info"
  jsonFormat : Bool := false
deriving DecidableEq, Repr

inductive SettingsFault
  | unreadable (fault : FileFault)
  /-- The text is no configuration. -/
  | malformed
deriving DecidableEq, Repr

def SettingsFault.message : SettingsFault → String
  | unreadable fault => fault.message
  | malformed => ""

namespace Settings

/-! ## The file -/

def readLoader? (s : Settings) (v : Value) : Option Settings := do
  match ← fields? ["modules_file", "unit_directory", "unload_attempts", "unload_retry_ms"] v with
  | [file, directory, attempts, retry] =>
    some { s with
      modulesFile := ← required text? file
      unitDirectory := ← optionalField text? directory
      unloadAttempts := ← withDefault 5 (natBelow? (Nat.pow 2 32)) attempts
      unloadRetryMs := ← withDefault 500 (natBelow? (Nat.pow 2 64)) retry }
  | _ => none

def readLogging? (s : Settings) (v : Value) : Option Settings := do
  match ← fields? ["level", "json_format"] v with
  | [level, json] =>
    some { s with level := ← required text? level, jsonFormat := ← withDefault false boolean? json }
  | _ => none

def parse? (text : String) : Option Settings := do
  let es ← Toml.read? text
  let s ← withDefault {} (readLoader? {}) (Entries.get? es "loader")
  withDefault s s.readLogging? (Entries.get? es "logging")

def defaultText : String :=
  "[loader]\nmodules_file = \"modules.toml\"\nunload_attempts = 5\nunload_retry_ms = 500\n\n"
    ++ "[logging]\nlevel = \"info\"\njson_format = false\n"

/-- A configuration as it was found or made. -/
structure Loaded where
  settings : Settings
  /-- Whether the file was created. -/
  created : Bool
  folder : Folder

def readText (f : Folder) (path : String) : Except FileFault String := (f.read path).bind textOf

def load (f : Folder) (path : String) : Except SettingsFault Loaded :=
  match f.holds path with
  | .error fault => .error (.unreadable fault)
  | .ok false =>
    match f.write path defaultText.toUTF8 with
    | .error fault => .error (.unreadable fault)
    | .ok after => .ok ⟨{}, true, after⟩
  | .ok true =>
    match readText f path with
    | .error fault => .error (.unreadable fault)
    | .ok text =>
      match parse? text with
      | none => .error .malformed
      | some s => .ok ⟨s, false, f⟩

/-! ## Overriding and checking -/

/-- The settings with those given by arguments in their place. -/
def override (s : Settings) (c : CommandLine) : Settings where
  modulesFile := c.modulesFile.getD s.modulesFile
  unitDirectory := c.unitDirectory.or s.unitDirectory
  unloadAttempts := s.unloadAttempts
  unloadRetryMs := s.unloadRetryMs
  level := c.logLevel.getD s.level
  jsonFormat := c.jsonLogs || s.jsonFormat

inductive Flaw
  | noModulesFile
  | noUnitDirectory
  | noAttempts
  | unknownLevel (level : String)
deriving DecidableEq, Repr

def Flaw.message : Flaw → String
  | noModulesFile => "Module list path cannot be empty"
  | noUnitDirectory => "Unit directory cannot be empty"
  | noAttempts => "unload_attempts must be at least 1"
  | unknownLevel level =>
    "Invalid log level: " ++ level ++ ". Must be one of: "
      ++ bracketed (Level.all.map fun l => quoted l.word)

def flaw? (s : Settings) : Option Flaw :=
  if s.modulesFile = "" then some .noModulesFile
  else if s.unitDirectory = some "" then some .noUnitDirectory
  else if s.unloadAttempts = 0 then some .noAttempts
  else if (Level.ofWord? s.level).isNone then some (.unknownLevel s.level)
  else none

end Settings

end Backplane.Zone
