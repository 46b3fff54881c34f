import ObstacleWatch.Recording.Discovery
import ObstacleWatch.Replay
import ObstacleWatch.Settings.File

/-!
# The command

The command replays all recordings that the settings point to and reports what the alarm would have
done.  Its only argument is the path of the settings; without the file it goes by the usual
settings.  Recordings that cannot be replayed are reported and passed over, while settings that
cannot be used and an event log that cannot be opened end the command.
-/

namespace ObstacleWatch.Command

structure Clock (m : Type → Type) where
  /-- The time that it is now, as a line of the log is stamped with it. -/
  timestamp : m String
  /-- Does some work and tells the seconds that it took. -/
  timed : {α : Type} → m α → m (α × Float)

def Clock.still (timestamp : String) (seconds : Float) : Clock Id :=
  ⟨timestamp, fun work => (work, seconds)⟩

structure Outcome where
  exitCode : Nat
  /-- The records that pass the filter, for the standard output. -/
  records : List Log.Record
  /-- Complaints about the filter and the error report, for the error output. -/
  report : List String
  tree : FileTree

def info (message : String) : Log.Record :=
  ⟨.info, .command, message⟩

def warning (message : String) : Log.Record :=
  ⟨.warn, .command, message⟩

def failing (message : String) : Log.Record :=
  ⟨.error, .command, message⟩

/-- The path of the settings if no argument names one. -/
def usualSettingsPath : String := "config.yaml"

def openingRecords (isLoaded : Bool) (path : String) (settings : Settings) : List Log.Record :=
  let r := settings.risk
  [info "🛒 Obstacle risk replay starting",
    if isLoaded then info s!"✓ Configuration loaded from {path}"
    else warning s!"{path} not found, using built-in defaults",
    info (s!"Risk thresholds: streak warn/caution={r.streakWarn}/{r.streakCaution}, " ++
      s!"pTTC warn/caution={fixed 1 r.pttcWarn}s/{fixed 1 r.pttcCaution}s, " ++
      s!"hysteresis={r.hysteresisFrames} frames, stale={r.staleFrames} frames")]

/-- The least time that a speed is reckoned with, in seconds. -/
def leastSeconds : Float := 1e-6

def summaryRecords (seconds : Float) (skipped : Nat) (c : Counters) : List Log.Record :=
  [info "✓ Replay complete", info s!"  Total frames: {c.totalFrames}"] ++
    (if 0 < skipped then [warning s!"  Skipped malformed lines: {skipped}"] else []) ++
    [info s!"  CAUTION frames: {c.cautionFrames}",
      info s!"  WARN frames: {c.warnFrames}",
      info s!"  🔔 Level changes: {c.levelChanges}",
      info s!"  🚨 WARN onsets: {c.warnOnsets}",
      info s!"  Tracks expired: {c.tracksReaped}",
      let speed := c.totalFrames.toFloat / atLeast leastSeconds seconds
      info s!"  Processing speed: {fixed 0 speed} frames/s"]

structure PathReplay where
  sink : EventSink
  records : List Log.Record
  /-- The number of skipped lines and the counters, or why there are none. -/
  summary : Except Failure (Nat × Counters)

namespace PathReplay

def ofPath {m : Type → Type} [Monad m] (now : m String) (settings : Settings) (sink : EventSink)
    (path : String) : m PathReplay := do
  let (loaded, loadRecords) := Recording.load sink.tree path
  match loaded with
  | .error failure => return ⟨sink, loadRecords, .error failure⟩
  | .ok recording =>
      match ← Replay.ofRecording now settings sink path recording with
      | .error e => return ⟨sink, loadRecords, .error (.of e.message)⟩
      | .ok progress =>
          return {
            sink := progress.state.sink
            records := loadRecords ++ progress.records
            summary :=
              match progress.failure with
              | some failure => .error failure
              | none => .ok (recording.skippedLines, progress.state.pipeline.counters) }

/-- The records at the end of the replay, which took some seconds. -/
def closing (r : PathReplay) (path : String) (seconds : Float) : List Log.Record :=
  match r.summary with
  | .ok (skipped, counters) => summaryRecords seconds skipped counters
  | .error failure => [failing s!"Failed to replay {path}: {failure.line}"]

end PathReplay

def ruler : Log.Record :=
  info (String.ofList (List.replicate 40 '='))

section

variable {m : Type → Type} [Monad m]

/-- Replays recordings one after the other; `number` of `total` are told for each. -/
def replayPaths (clock : Clock m) (settings : Settings) (total : Nat) :
    Nat → EventSink → List String → m (EventSink × List Log.Record)
  | _, sink, [] => return (sink, [])
  | number, sink, path :: paths => do
      let (r, seconds) ← clock.timed (PathReplay.ofPath clock.timestamp settings sink path)
      let (sink, later) ← replayPaths clock settings total (number + 1) r.sink paths
      return (sink, [ruler, info s!"Replaying {number}/{total}: {path}", ruler] ++ r.records ++
        r.closing path seconds ++ later)

end

/-- Opens the event log that the settings ask for. -/
def openSink (settings : Settings) (t : FileTree) :
    Except Failure (EventSink × List Log.Record) :=
  match settings.output.eventsPath with
  | none => .ok (⟨t, none⟩, [])
  | some path => do
      let (t, log) ← EventLog.openAt t path
      return (⟨t, some log⟩, [log.openRecord])

def closingRecords (sink : EventSink) : List Log.Record :=
  sink.log.toList.map fun log => info s!"{log.written} WARN event(s) written to {log.path}"

/-- The settings that the command goes by, and whether they were found at the path. -/
def findSettings (t : FileTree) (path : String) : Except SettingsFileError (Bool × Settings) :=
  if t.contains path then (Settings.load t path).map (true, ·) else .ok (false, .default)

def settingsPath (arguments : List String) : String :=
  arguments.head?.getD usualSettingsPath

section

variable {m : Type → Type} [Monad m]

/-- Runs the command with settings, behind the records of its start. -/
def replayAll (clock : Clock m) (settings : Settings) (t : FileTree)
    (opening : List Log.Record) : m Outcome := do
  let filter := Log.Filter.ofString settings.logging.level
  let complaints := Log.complaints settings.logging.level
  let extension := settings.replay.extension
  let directory := settings.replay.inputDirectory
  match t.recordings directory extension with
  | [] =>
      let missing := failing s!"No *.{extension} recordings found in {directory}"
      return ⟨0, (opening ++ [missing]).filter filter.passes, complaints, t⟩
  | paths =>
      let found := opening ++ [info s!"Found {paths.length} recording(s) to replay"]
      match openSink settings t with
      | .error failure =>
          return ⟨1, found.filter filter.passes, complaints ++ failure.report, t⟩
      | .ok (sink, openRecords) =>
          let (sink, records) ← replayPaths clock settings paths.length 1 sink paths
          let all := found ++ openRecords ++ records ++ closingRecords sink
          return ⟨0, all.filter filter.passes, complaints, sink.tree⟩

def run (clock : Clock m) (t : FileTree) (arguments : List String) : m Outcome :=
  let path := settingsPath arguments
  match findSettings t path with
  | .error e => return ⟨1, [], (e.failure path).report, t⟩
  | .ok (isLoaded, settings) =>
      replayAll clock settings t (openingRecords isLoaded path settings)

end

end ObstacleWatch.Command
