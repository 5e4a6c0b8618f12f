import Backplane.Log
import Backplane.Text.Blank
/-!
# `Backplane.Log.Entry`: what a log tells its reader

A plain log is read line by line.  Blanks divide the columns of a line: the time, the level, the
part of the program, and the text, which goes on to the end of the line.  A reader cannot tell an
event from another line that is printed: the second line of a text, or help, is read in the same
way, and blank lines are passed over.

The log is the one that `setup_logging` sets up.
-/
namespace Backplane

structure LogEntry where
  level : String := ""
  text : String := ""
deriving DecidableEq, Repr

namespace LogEntry

/-- A line without its first column, and that column. -/
def column (line : List Char) : List Char × List Char :=
  let (word, rest) := (line.dropWhile isWhite).span (!isWhite ·)
  (word, rest.dropWhile isWhite)

/-- The entry that a line is read as.  Columns that are missing are empty. -/
def ofLine (line : String) : LogEntry :=
  let (_, afterTime) := column line.toList
  let (level, afterLevel) := column afterTime
  let (_, text) := column afterLevel
  ⟨String.ofList level, String.ofList text⟩

/-- A line without the carriage return that belongs to its end. -/
def dropReturn (line : String) : String :=
  if line.toList.getLast? = some '\r' then String.ofList line.toList.dropLast else line

def lines (s : String) : List String := (s.splitOn "\n").map dropReturn

def ofLines (ls : List String) : List LogEntry := (ls.filter fun l => !isBlank l).map ofLine

def ofText (s : String) : List LogEntry := ofLines (lines s)

end LogEntry

/-- The entry of an event in a log that keeps events apart. -/
def LogEvent.entry (e : LogEvent) : LogEntry := ⟨e.level.mark, e.text⟩

/-- The entries that an event is read as in a plain log.  The blanks before its text cannot be told
from those that divide the columns. -/
def LogEvent.plainEntries (e : LogEvent) : List LogEntry :=
  match LogEntry.lines e.text with
  | [] => []
  | first :: more => ⟨e.level.mark, trimStart first⟩ :: LogEntry.ofLines more

end Backplane
