import Backplane.Zone.Host
/-!
# `Backplane.Main`: the host as a program

The program reads the files that a run needs, carries the run out, and prints its log.  The end of
standard input is taken for the signal to stop.

This models `main` of the zone host.
-/

namespace Backplane.Zone

def readInto (f : Folder) (path : String) : IO Folder := do
  try
    let content ← IO.FS.readBinFile path
    return f.put (Folder.nameOf path) content
  catch _ => return f

def printLog (h : Host) (events : List LogEvent) : IO Unit :=
  events.forM fun e => IO.println (if h.settings.jsonFormat then e.jsonLine else e.line)

/-- Writes the configuration, if the run has just made it. -/
def saveSettings (before after : Folder) (path : String) : IO Unit := do
  match before.read path, after.read path with
  | .error _, .ok content => IO.FS.writeBinFile path content
  | _, _ => return ()

/-- Waits for the end of standard input. -/
def awaitEnd : IO Unit := do
  let _ ← (← IO.getStdin).readToEnd

def runHost (i : Invocation) (c : CommandLine) : IO UInt32 := do
  let configured := { i with folder := ← readInto i.folder c.configPath }
  match Host.start configured c with
  | .error (fault, folder) =>
    saveSettings configured.folder folder c.configPath
    IO.eprintln ("❌ Failed to start zone host: " ++ fault.message)
    return 1
  | .ok host =>
    saveSettings configured.folder host.folder c.configPath
    let ready := { host with folder := ← readInto host.folder host.settings.modulesFile }
    let (well, running) := ready.attach
    let shown := running.shown i.logFilter
    printLog running shown
    if well then
      awaitEnd
      let (ended, last) := running.stop .terminate
      printLog last ((last.shown i.logFilter).drop shown.length)
      return if ended then 0 else 1
    else return 1

end Backplane.Zone

open Backplane Zone

def main (arguments : List String) : IO UInt32 := do
  let logFilter ← IO.getEnv "RUST_LOG"
  let seed ← IO.rand 1 (Nat.pow 2 64 - 1)
  let i : Invocation := { arguments, logFilter, entropy := .ofSeed (UInt64.ofNat seed) }
  match CommandLine.read arguments with
  | .run c => runHost i c
  | .help => IO.print helpText; return 0
  | .version => IO.println (programName ++ " " ++ version); return 0
  | .refused fault => IO.eprintln fault.message; return 2
