import Backplane.Lifecycle.Answer
import Backplane.Log.Entry
import Backplane.Text.Terminal
import Backplane.Zone.LogFilter
import Backplane.Zone.Modules
import Backplane.Zone.Settings
/-!
# `Backplane.Zone.Host`: a whole run of the host

The host reads its configuration, loads the modules of its manifest and attaches them, waits for a
signal, and then detaches and unloads them; an unloading that is refused because a module is in use
is tried again.

This models the `Application` of the zone host: `start`, `run` and `shutdown`.
-/
namespace Backplane.Zone

inductive Signal
  | terminate
  | interrupt
deriving DecidableEq, Repr

def Signal.name : Signal → String
  | terminate => "SIGTERM"
  | interrupt => "SIGINT"

structure Invocation where
  arguments : List String
  folder : Folder := {}
  /-- Which files are libraries. -/
  libraries : List (List String × Except LibraryFault Bundle) := []
  /-- The log filter given in the environment. -/
  logFilter : Option String := none
  /-- Where randomness comes from. -/
  entropy : Xorshift := .ofSeed 0

/-- The units that there are for a run whose configuration is settled. -/
def Invocation.depot (i : Invocation) (folder : Folder) (s : Settings) : Depot :=
  { builtin := builtinUnit, shelf := ⟨folder, i.libraries⟩, opener := Shelf.load,
    folder := s.unitDirectory }

structure RunReport where
  exit : Nat
  /-- Whether it waited for a signal. -/
  signalled : Bool := false
  /-- The events that its log shows. -/
  log : List LogEvent := []
  /-- Whether the log keeps events apart, as a plain one does not. -/
  jsonFormat : Bool := false
  output : String := ""
  errors : String := ""
  folder : Folder

/-- What a reader finds in all that a run printed. -/
def RunReport.entries (r : RunReport) : List LogEntry :=
  (if r.jsonFormat then r.log.map LogEvent.entry else r.log.flatMap LogEvent.plainEntries)
    ++ LogEntry.ofText r.output

/-- A host whose configuration is settled. -/
structure Host where
  settings : Settings
  folder : Folder
  rack : Rack

namespace Host

def report (h : Host) (level : Level) (origin : Origin) (text : String) : Host :=
  { h with rack := h.rack.mapEnv fun env => env.report level origin text }

def tell (h : Host) (text : String) : Host := h.report .info .host text

/-! ## Starting -/

inductive StartFault
  | settings (path : String) (fault : SettingsFault)
  | flaw (f : Settings.Flaw)
deriving DecidableEq, Repr

def StartFault.message : StartFault → String
  | settings path fault => "reading " ++ path ++ ": " ++ fault.message
  | flaw f => f.message

/-- The host of a configuration that was loaded and has no flaw. -/
def ofSettings (i : Invocation) (path : String) (loaded : Settings.Loaded) (s : Settings) : Host :=
  let depot := i.depot loaded.folder s
  let host : Host := ⟨s, loaded.folder, { env := { depot, entropy := i.entropy } }⟩
  let begun :=
    (host.report .info .hostLogging ("🔧 Logging initialized with level: " ++ s.level)).tell
      ("🚀 Zone host v" ++ version ++ " starting")
  if loaded.created then begun.tell ("Created default configuration file: " ++ path) else begun

/-- Starts a host; if that fails, the folder may have changed all the same. -/
def start (i : Invocation) (c : CommandLine) : Except (StartFault × Folder) Host :=
  match Settings.load i.folder c.configPath with
  | .error fault => .error (.settings c.configPath fault, i.folder)
  | .ok loaded =>
    let s := loaded.settings.override c
    match s.flaw? with
    | some flaw => .error (.flaw flaw, loaded.folder)
    | none => .ok (ofSettings i c.configPath loaded s)

/-! ## Running -/

/-- The text of a failure with what caused it. -/
def chain (e : LifecycleError) : String :=
  match e with
  | .config (.unreadable _ fault) => e.message ++ ": " ++ fault.message
  | .load _ cause => e.message ++ ": " ++ cause.message
  | _ => e.message

/-- Reports a failure as the host's; `what` says what was being done. -/
def complain (h : Host) (what : String) (e : LifecycleError) : Host :=
  h.report .error .host ("❌ Zone host error: " ++ what ++ chain e)

/-- Changes the rack by a lifecycle operation; a failure is reported. -/
def operate {α : Type} (h : Host) (what : String) (f : Rack → Except LifecycleError α × Rack) :
    Option α × Host :=
  let r := f h.rack
  let after := { h with rack := r.2 }
  match r.1 with
  | .ok x => (some x, after)
  | .error e => (none, after.complain what e)

def moduleLine (m : ModuleInfo) : String :=
  "  - " ++ m.name ++ " v" ++ m.version ++ " [" ++ m.unit ++ "] provides "
    ++ bracketed (m.capabilities.map fun c => "CapabilityId(" ++ quoted c.name ++ ")")

def tellLoaded (h : Host) (loaded attached : Nat) : Host :=
  let first := h.tell ("✅ Zone host running with " ++ toString loaded ++ " modules (" ++ toString attached
    ++ " attached)")
  let each := h.rack.infos.foldl (fun h m => h.tell (moduleLine m)) first
  (each.tell ("📊 " ++ toString h.rack.env.broker.interfaces.size ++ " interfaces, "
    ++ toString h.rack.env.broker.advisors.size ++ " advisors registered")).tell
    "🛑 Press Ctrl+C to shut down"

/-- Loads and attaches the modules of the manifest; whether that went well. -/
def attach (h : Host) : Bool × Host :=
  let path := h.settings.modulesFile
  let source := Source.inFolder h.folder path
  let begun := h.tell ("🔌 Loading modules from " ++ path)
  match begun.operate ("loading modules from " ++ path ++ ": ") (·.load source) with
  | (none, h) => (false, h)
  | (some names, h) =>
    match h.operate "" Rack.postLoad with
    | (none, h) => (false, h)
    | (some attached, h) => (true, h.tellLoaded names.length attached)

/-- Unloads every module; whether that went well.  As long as it is refused because a module is in
use it is tried again, `retries` more times at most. -/
def unload (h : Host) (retries : Nat) : Bool × Host :=
  let r := h.rack.unloadAll
  let after := { h with rack := r.2 }
  match r.1 with
  | .ok names => (true, after.tell ("👋 Unloaded " ++ toString names.length ++ " modules"))
  | .error e =>
    match retries, e.isBusy with
    | left + 1, true =>
      let attempts := h.settings.unloadAttempts
      let refused := after.report .warn .host
        ("⏳ Unload attempt " ++ toString (attempts - (left + 1)) ++ "/" ++ toString attempts
          ++ " refused: " ++ e.message)
      refused.unload left
    | _, _ => (false, after.complain "unloading modules: " e)

/-- Detaches and unloads every module; whether that went well. -/
def shutdown (h : Host) : Bool × Host :=
  match h.operate "" Rack.preUnload with
  | (none, h) => (false, h)
  | (some _, h) => h.unload (h.settings.unloadAttempts - 1)

/-- A host that has heard a signal. -/
def hear (h : Host) (signal : Signal) : Host :=
  (h.report .info .hostSignals ("📡 Received " ++ signal.name)).tell
    "🛑 Shutdown signal received, detaching modules..."

/-- What a signal makes a running host do. -/
def stop (h : Host) (signal : Signal) : Bool × Host := (h.hear signal).shutdown

/-- An event as the log shows it: in a plain log controls are spelled out. -/
def render (h : Host) (e : LogEvent) : LogEvent :=
  if h.settings.jsonFormat then e else { e with text := Terminal.spell e.text }

def shown (h : Host) (logFilter : Option String) : List LogEvent :=
  let level := (Level.ofWord? h.settings.level).getD .info
  (h.rack.env.log.filter (LogFilter.choose logFilter level).allows).map h.render

/-- The report of a run that ended here. -/
def ended (h : Host) (i : Invocation) (well signalled : Bool) : RunReport where
  exit := if well then 0 else 1
  signalled := signalled
  log := h.shown i.logFilter
  jsonFormat := h.settings.jsonFormat
  folder := h.folder

end Host

/-! ## Whole runs -/

def programName : String := "Zone Host"

def helpText : String :=
  "Loads zone server modules and drives their lifecycle\n\nUsage: zone_host [OPTIONS]\n\nOptions:\n"
    ++ "  -c, --config <FILE>      Host configuration file [default: zone.toml]\n"
    ++ "  -m, --modules <FILE>     Module list to load at startup\n"
    ++ "  -u, --units <DIR>        Directory searched for loadable units\n"
    ++ "  -l, --log-level <LEVEL>  Log level (trace, debug, info, warn, error)\n"
    ++ "      --json-logs          Output logs in JSON format\n"
    ++ "  -h, --help               Print help\n"
    ++ "  -V, --version            Print version\n"

/-- A run with settled arguments that gets a signal as soon as it waits for one. -/
def runWith (i : Invocation) (c : CommandLine) (signal : Signal) : RunReport :=
  match Host.start i c with
  | .error (fault, folder) =>
    { exit := 1, errors := "❌ Failed to start zone host: " ++ fault.message, folder }
  | .ok host =>
    match host.attach with
    | (false, h) => h.ended i false false
    | (true, h) =>
      let last := h.stop signal
      last.2.ended i last.1 true

def run (i : Invocation) (signal : Signal) : RunReport :=
  match CommandLine.read i.arguments with
  | .refused fault => { exit := 2, errors := fault.message, folder := i.folder }
  | .help => { exit := 0, output := helpText, folder := i.folder }
  | .version => { exit := 0, output := programName ++ " " ++ version ++ "\n", folder := i.folder }
  | .run c => runWith i c signal

end Backplane.Zone
