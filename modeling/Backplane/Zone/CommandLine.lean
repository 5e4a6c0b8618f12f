import Backplane.Text.Similar
import Backplane.Text.Terminal
/-!
# `Backplane.Zone.CommandLine`: the arguments of the host

Four options take a value, in the next argument or attached to the option, and one flag takes none;
each may be given once.  Help and version act as soon as they are met.  An option that waits for its
value takes any argument that does not look like an option, and what it took is only settled when
the next option or the end comes, so an argument that is not known at all is complained about first.
A complaint shows how the program is used: with any options, or with those that were given.

A `CommandLine` models the `CliArgs`.
-/
namespace Backplane.Zone

/-- The options that take a value. -/
inductive CliOption
  | config
  | modules
  | units
  | logLevel
deriving DecidableEq, Repr

namespace CliOption

def all : List CliOption := [config, modules, units, logLevel]

def long : CliOption → String
  | config => "config"
  | modules => "modules"
  | units => "units"
  | logLevel => "log-level"

def short : CliOption → Char
  | config => 'c'
  | modules => 'm'
  | units => 'u'
  | logLevel => 'l'

def valueName : CliOption → String
  | config => "FILE"
  | modules => "FILE"
  | units => "DIR"
  | logLevel => "LEVEL"

/-- The option with its value, as messages show it. -/
def usage (o : CliOption) : String := "--" ++ o.long ++ " <" ++ o.valueName ++ ">"

end CliOption

/-- What an option name stands for. -/
inductive Switch
  | valued (o : CliOption)
  | jsonLogs
  | help
  | version
deriving DecidableEq, Repr

namespace Switch

def all : List Switch := CliOption.all.map valued ++ [jsonLogs, help, version]

def long : Switch → String
  | valued o => o.long
  | jsonLogs => "json-logs"
  | help => "help"
  | version => "version"

def ofLong? (name : String) : Option Switch := all.find? fun x => x.long = name

def ofShort? (c : Char) : Option Switch :=
  if c = 'h' then some .help
  else if c = 'V' then some .version
  else (CliOption.all.find? fun o => o.short = c).map .valued

def usage : Switch → String
  | valued o => o.usage
  | x => "--" ++ x.long

end Switch

/-- The settings given by arguments. -/
structure CommandLine where
  configPath : String := "zone.toml"
  modulesFile : Option String := none
  unitDirectory : Option String := none
  logLevel : Option String := none
  jsonLogs : Bool := false
deriving DecidableEq, Repr

inductive CliFault
  /-- Nothing has this name; `meant` has one like it, and `given` came before. -/
  | unknown (argument : String) (meant : Option Switch) (given : List Switch)
  | missingValue (option : CliOption)
  | repeated (switch : Switch)
  /-- A value is attached to a switch that takes none; `given` came before. -/
  | unexpectedValue (switch : Switch) (value : String) (given : List Switch)
deriving DecidableEq, Repr

namespace CliFault

def usage (given : List Switch) : String :=
  let shown := if given.isEmpty then ["[OPTIONS]"] else given.eraseDups.map Switch.usage
  "\n\nUsage: zone_host " ++ String.intercalate " " shown

/-- The advice that a switch has a name like the one that was given. -/
def advice : Option Switch → String
  | some x => "\n\n  tip: a similar argument exists: '--" ++ x.long ++ "'"
  | none => ""

def message (f : CliFault) : String :=
  let what :=
    match f with
    | unknown a meant given =>
      "unexpected argument '" ++ Terminal.strip a ++ "' found" ++ advice meant ++ usage (given ++ meant.toList)
    | missingValue o => "a value is required for '" ++ o.usage ++ "' but none was supplied"
    | repeated x => "the argument '" ++ x.usage ++ "' cannot be used multiple times" ++ usage []
    | unexpectedValue x v given =>
      "unexpected value '" ++ Terminal.strip v ++ "' for '" ++ x.usage ++ "' found; no more were expected"
        ++ usage (given ++ [x])
  "error: " ++ what ++ "\n\nFor more information, try '--help'."

end CliFault

inductive Request
  | run (settings : CommandLine)
  | help
  | version
  | refused (fault : CliFault)
deriving DecidableEq, Repr

/-! ## Reading arguments -/

structure CliState where
  /-- The switches that were given, in order, each with its value; a flag has none. -/
  given : List (Switch × String) := []
  /-- The option that came last, if its value is not settled. -/
  pending : Option (CliOption × Option String) := none

inductive Stop
  | help
  | version
  | fault (f : CliFault)

namespace CliState

def value? (s : CliState) (x : Switch) : Option String := (s.given.find? fun y => y.1 = x).map (·.2)

def has (s : CliState) (x : Switch) : Bool := (s.value? x).isSome

/-- Notes that a switch was given, and its value. -/
def store (s : CliState) (x : Switch) (v : String) : Except Stop CliState :=
  if s.has x then .error (.fault (.repeated x)) else .ok { s with given := s.given ++ [(x, v)] }

/-- Settles the option that came last. -/
def settle (s : CliState) : Except Stop CliState :=
  match s.pending with
  | none => .ok s
  | some (o, none) => .error (.fault (.missingValue o))
  | some (o, some v) => { s with pending := none }.store (.valued o) v

/-- The switches given before, for a complaint about what comes next.  An option that has just been
given for the second time is not counted. -/
def before (s : CliState) : List Switch :=
  match s.settle, s.pending with
  | .ok s, _ => s.given.map (·.1)
  | .error _, some (o, some _) => (s.given.map (·.1)).filter (· ≠ .valued o)
  | .error _, _ => s.given.map (·.1)

/-- Takes a switch without a value of its own. -/
def take (s : CliState) (x : Switch) : Except Stop CliState := do
  let s ← s.settle
  match x with
  | .valued o => .ok { s with pending := some (o, none) }
  | .jsonLogs => s.store .jsonLogs ""
  | .help => .error .help
  | .version => .error .version

/-- Takes an option with its value attached. -/
def takeValue (s : CliState) (o : CliOption) (v : String) : Except Stop CliState := do
  let s ← s.settle
  s.store (.valued o) v

/-- A long name, and the value attached to it. -/
def splitLong (cs : List Char) : String × Option String :=
  match cs.span (· ≠ '=') with
  | (name, []) => (String.ofList name, none)
  | (name, _ :: v) => (String.ofList name, some (String.ofList v))

/-- Reads an argument after its two dashes. -/
def takeLong (s : CliState) (cs : List Char) : Except Stop CliState :=
  let (name, attached) := splitLong cs
  match Switch.ofLong? name, attached with
  | none, _ =>
    .error (.fault (.unknown ("--" ++ name) (Similar.mostLike? Switch.long name Switch.all) s.before))
  | some x, none => s.take x
  | some (.valued o), some v => s.takeValue o v
  | some x, some v => .error (.fault (.unexpectedValue x v (s.given.map (·.1))))

/-- Reads an argument after its single dash: one-letter switches, the rest after an option being its
value. -/
def takeShort (s : CliState) : List Char → Except Stop CliState
  | [] => .ok s
  | c :: rest =>
    match Switch.ofShort? c with
    | none => .error (.fault (.unknown (String.ofList ['-', c]) none []))
    | some (.valued o) =>
      match rest with
      | [] => s.take (.valued o)
      | '=' :: v => s.takeValue o (String.ofList v)
      | v => s.takeValue o (String.ofList v)
    | some x => (s.take x).bind fun s => takeShort s rest

/-- Reads an argument that does not look like an option. -/
def takeWord (s : CliState) (word : String) : Except Stop CliState :=
  match s.pending with
  | some (o, none) => .ok { s with pending := some (o, some word) }
  | _ => .error (.fault (.unknown word none []))

def readAll : List String → CliState → Except Stop CliState
  | [], s => s.settle
  | a :: rest, s =>
    match a.toList with
    | ['-', '-'] =>
      match rest with
      | [] => s.settle
      | word :: _ => .error (.fault (.unknown word none []))
    | '-' :: '-' :: cs => (s.takeLong cs).bind (readAll rest)
    | '-' :: c :: cs => (s.takeShort (c :: cs)).bind (readAll rest)
    | _ => (s.takeWord a).bind (readAll rest)

def settings (s : CliState) : CommandLine where
  configPath := (s.value? (.valued .config)).getD "zone.toml"
  modulesFile := s.value? (.valued .modules)
  unitDirectory := s.value? (.valued .units)
  logLevel := s.value? (.valued .logLevel)
  jsonLogs := s.has .jsonLogs

end CliState

def CommandLine.read (arguments : List String) : Request :=
  match CliState.readAll arguments {} with
  | .ok s => .run s.settings
  | .error .help => .help
  | .error .version => .version
  | .error (.fault f) => .refused f

end Backplane.Zone
