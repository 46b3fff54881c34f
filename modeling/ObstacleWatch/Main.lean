import ObstacleWatch.Command
import Std.Time

/-!
# The program

The program learns what it needs of the disk, runs the command on it, prints what the command
reports, and adds to the event log what the command wrote.
-/

namespace ObstacleWatch.Disk

def pathOf (location : Location) : String :=
  "/" ++ "/".intercalate location

/-- The device that a place stands for; whatever is no file keeps nothing. -/
def deviceAt (location : Location) : Device :=
  if location = ["dev", "full"] then .full else .sink

/-- What is at a place of the disk, unless it cannot be looked at.  A link is taken to hold the path
that is left when all links are followed. -/
def entryAt? (location : Location) : IO (Option FileEntry) := do
  let path := System.mkFilePath [pathOf location]
  try
    match (← path.symlinkMetadata).type with
    | .dir => return some .directory
    | .symlink => return some (.link (toString (← IO.FS.realPath path)))
    | .file => return some (.file (← IO.FS.readBinFile path).toList)
    | .other => return some (.device (deviceAt location))
  catch _ => return none

/-- Learns what lies along the steps of a path. -/
partial def learnSteps (t : FileTree) (here : Location) : List String → IO FileTree
  | [] => return t
  | "." :: rest => learnSteps t here rest
  | ".." :: rest => learnSteps t here.dropLast rest
  | name :: rest => do
      let place := here ++ [name]
      let t ←
        if (t.entry? place).isSome then pure t
        else
          match ← entryAt? place with
          | some entry => pure (t.put place entry)
          | none => pure t
      match t.entry? place with
      | some .directory => learnSteps t place rest
      | some (.link target) => learnSteps t [] (Path.steps target ++ rest)
      | _ => return t

def learn (t : FileTree) (path : String) : IO FileTree :=
  learnSteps t (if Path.isAbsolute path then [] else t.here) (Path.steps path)

/-- Learns what lies below a directory; `path` is the way to it, and `ancestors` are the directories
that it is reached through. -/
partial def learnBelow (t : FileTree) (ancestors : List Location) (path : String)
    (here : Location) : IO FileTree := do
  let mut t := t
  for entry in ← (System.mkFilePath [pathOf here]).readDir do
    let inside := Path.join path entry.fileName
    t ← learnSteps t here [entry.fileName]
    if let some place := t.place? inside then
      if t.entry? place = some .directory ∧ place ∉ ancestors then
        t ← learnBelow t (place :: ancestors) inside place
  return t

/-- Learns what the command needs to replay the recordings of its settings. -/
def learnFor (t : FileTree) (settings : Settings) : IO FileTree := do
  let t ← learn t settings.replay.inputDirectory
  let t ←
    match t.find? settings.replay.inputDirectory with
    | some (location, .directory) => learnBelow t [location] settings.replay.inputDirectory location
    | _ => pure t
  match settings.output.eventsPath with
  | some path => learn t path
  | none => return t

/-- Adds to the event log what the command added to it. -/
def writeBack (before after : FileTree) (path : String) : IO Unit := do
  if let some (location, .file octets) := after.find? path then
    let known :=
      match before.entry? location with
      | some (.file known) => known.length
      | _ => 0
    if let some parent := Path.parent? path then
      if !parent.isEmpty then IO.FS.createDirAll parent
    let handle ← IO.FS.Handle.mk path .append
    handle.write ⟨(octets.drop known).toArray⟩

def clock : Command.Clock IO where
  timestamp := do
    let now : Std.Time.DateTime ← Std.Time.DateTime.now
    return now.toISO8601String
  timed work := do
    let began ← IO.monoNanosNow
    let result ← work
    let ended ← IO.monoNanosNow
    return (result, (ended - began).toFloat / 1e9)

end ObstacleWatch.Disk

open ObstacleWatch

def main (arguments : List String) : IO UInt32 := do
  let here := Path.steps (toString (← IO.currentDir))
  let path := Command.settingsPath arguments
  let known ← Disk.learn ⟨[], here⟩ path
  let settings := (Command.findSettings known path).toOption.map Prod.snd
  let before ←
    match settings with
    | some settings => Disk.learnFor known settings
    | none => pure known
  let outcome ← Command.run Disk.clock before arguments
  for record in outcome.records do
    IO.println s!"{← Disk.clock.timestamp} {record.line}"
  for line in outcome.report do
    IO.eprintln line
  if outcome.exitCode = 0 then
    if let some path := settings.bind (·.output.eventsPath) then
      Disk.writeBack before outcome.tree path
  return outcome.exitCode.toUInt32
