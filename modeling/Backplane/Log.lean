import Backplane.Text.Hex
/-!
# `Backplane.Log`: what is reported while the program runs

An event has a level, the part of the program it comes from, and a text.

Events are what `setup_logging` has printed, plain or as JSON.
-/
namespace Backplane

inductive Level
  | trace
  | debug
  | info
  | warn
  | error
deriving DecidableEq, Repr

namespace Level

def all : List Level := [trace, debug, info, warn, error]

def rank : Level → Nat
  | trace => 0
  | debug => 1
  | info => 2
  | warn => 3
  | error => 4

/-- The word for a level in settings. -/
def word : Level → String
  | trace => "trace"
  | debug => "debug"
  | info => "info"
  | warn => "warn"
  | error => "error"

/-- The mark of a level in a log. -/
def mark : Level → String
  | trace => "TRACE"
  | debug => "DEBUG"
  | info => "INFO"
  | warn => "WARN"
  | error => "ERROR"

def ofWord? (s : String) : Option Level := all.find? (·.word == s)

theorem ofWord?_word (l : Level) : ofWord? l.word = some l := by cases l <;> decide

end Level

/-- The parts of the program that report events. -/
inductive Origin
  | loader
  | interfaces
  | advisors
  | context
  | catalog
  | units
  | host
  | hostLogging
  | hostModules
  | hostSignals
deriving DecidableEq, Repr

/-- The path of a part, its segments divided by double colons. Filters choose events by it. -/
def Origin.path : Origin → String
  | loader => "module_system::loader"
  | interfaces => "module_system::interface"
  | advisors => "module_system::advisor"
  | context => "module_system::context"
  | catalog => "module_system::catalog"
  | units => "module_system::unit"
  | host => "zone_host"
  | hostLogging => "zone_host::logging"
  | hostModules => "zone_host::builtins"
  | hostSignals => "zone_host::signals"

structure LogEvent where
  level : Level
  origin : Origin
  text : String
deriving DecidableEq, Repr

/-- A log line: the level's mark and the text. -/
def LogEvent.line (e : LogEvent) : String := e.level.mark ++ " " ++ e.text

/-- A character between the quotes of a JSON string. -/
def jsonChar (c : Char) : List Char :=
  if c = '"' || c = '\\' then ['\\', c]
  else if c = '\n' then ['\\', 'n']
  else if c = '\t' then ['\\', 't']
  else if c = '\r' then ['\\', 'r']
  else if c.toNat < 32 then '\\' :: 'u' :: Hex.fixed 4 c.toNat
  else [c]

def jsonString (s : String) : String := String.ofList ('"' :: s.toList.flatMap jsonChar ++ ['"'])

def LogEvent.jsonLine (e : LogEvent) : String :=
  "\x7b\"level\":" ++ jsonString e.level.mark ++ ",\"fields\":\x7b\"message\":" ++ jsonString e.text
    ++ "\x7d,\"target\":" ++ jsonString e.origin.path ++ "\x7d"

end Backplane
