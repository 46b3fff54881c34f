import ObstacleWatch.Alarm
import ObstacleWatch.Failure
import ObstacleWatch.Files.Directory
import ObstacleWatch.Json.Writer
import ObstacleWatch.Text.Utf8

/-!
# The log of warning onsets

Warning onsets are appended to a file, one line each.  A line says when it was written and which
stream the onset came from, and then what the onset was.
-/

namespace ObstacleWatch

/-- An open log: the path it was opened under, the place of its file, and the number of onsets
written since. -/
structure EventLog where
  path : String
  location : Location
  written : Nat

namespace WarnOnset

def logLine (w : WarnOnset) (timestamp source : String) : List Char :=
  (Json.Value.record
    (("timestamp", .str timestamp) :: ("source", .str source) :: w.fields)).toChars

end WarnOnset

namespace EventLog

/-- Opens a log; the directory that holds it is made if it is missing. -/
def openAt (t : FileTree) (path : String) : Except Failure (FileTree × EventLog) := do
  let t ←
    match Path.parent? path with
    | some parent =>
        (t.makeDirectories parent).mapError fun e =>
          (Failure.of e.message).during s!"creating {parent}"
    | none => pure t
  let (t, location) ← (t.openForAppend path).mapError fun e =>
    (Failure.of e.message).during s!"opening event log {path}"
  return (t, ⟨path, location, 0⟩)

def openRecord (log : EventLog) : Log.Record :=
  ⟨.info, .eventLog, s!"📝 WARN events → {log.path}"⟩

/-- Appends an onset; one that cannot be written does not count. -/
def append (t : FileTree) (log : EventLog) (timestamp source : String) (w : WarnOnset) :
    Except Failure (FileTree × EventLog) := do
  let line := Utf8.encode (w.logLine timestamp source ++ ['\n'])
  let t ← (t.append log.location line).mapError fun e =>
    (Failure.of e.message).during s!"writing {log.path}"
  return (t, { log with written := log.written + 1 })

end EventLog

end ObstacleWatch
