import ObstacleWatch.EventLog
import ObstacleWatch.Recording.Content
import ObstacleWatch.Settings.Program

/-!
# Replay of a recording

A recording goes through a new pipeline frame by frame.  After each frame its events are taken from
the queue: changes of the level are reported, and warning onsets are reported and written to the
event log, if there is one.  Each line of the log is stamped with the time at which it is written,
so a replay runs wherever the time can be asked for.  An onset that cannot be written breaks the
replay off.
-/

namespace ObstacleWatch

/-- Where warning onsets go: the tree of files, and the log in it. -/
structure EventSink where
  tree : FileTree
  log : Option EventLog

section

variable {m : Type → Type} [Monad m]

/-- Takes in an event; the time is asked for only when there is a line to write. -/
def EventSink.take (now : m String) (sink : EventSink) (source : String) :
    AlarmEvent → m (Except Failure EventSink)
  | .levelChanged _ => return .ok sink
  | .warnOnset w =>
      match sink.log with
      | some log => do
          let timestamp ← now
          return (log.append sink.tree timestamp source w).map fun (tree, log) => ⟨tree, some log⟩
      | none => return .ok sink

end

namespace AlarmEvent

/-- What the command reports of an event; a level change without an object is passed over. -/
def commandRecords : AlarmEvent → List Log.Record
  | levelChanged c =>
      c.object.toList.map fun o =>
        ⟨.info, .command, s!"Frame {c.frame}: {c.after.name} ← {o.summary}"⟩
  | warnOnset w =>
      [⟨.warn, .command,
        s!"🚨 WARN onset: {w.className} id={w.trackId} at frame {w.frame} " ++
          s!"(pTTC={fixed 2 w.pttc}s, score={fixed 0 w.score})"⟩]

end AlarmEvent

/-- What became of a replay: where it stands, what it reported, and why it was broken off, if it
was. -/
structure Progress (α : Type) where
  state : α
  records : List Log.Record
  failure : Option Failure

section

variable {m : Type → Type} [Monad m]

/-- Takes in events one after the other, up to the first that cannot be taken in. -/
def EventSink.takeAll (now : m String) (source : String) :
    EventSink → List AlarmEvent → m (Progress EventSink)
  | sink, [] => return ⟨sink, [], none⟩
  | sink, event :: events => do
      match ← sink.take now source event with
      | .error failure => return ⟨sink, event.commandRecords, some failure⟩
      | .ok sink =>
          let later ← takeAll now source sink events
          return { later with records := event.commandRecords ++ later.records }

end

structure Replay where
  pipeline : Pipeline
  sink : EventSink

namespace Replay

section

variable {m : Type → Type} [Monad m]

def step (now : m String) (source : String) (r : Replay) (frame : Frame) : m (Progress Replay) := do
  let (pipeline, outcome) := r.pipeline.process frame
  let (pipeline, events) := pipeline.drainEvents
  let taken ← r.sink.takeAll now source events
  return ⟨⟨pipeline, taken.state⟩, outcome.records ++ taken.records, taken.failure⟩

/-- Replays frames one after the other, up to a failure. -/
def run (now : m String) (source : String) : Replay → List Frame → m (Progress Replay)
  | r, [] => return ⟨r, [], none⟩
  | r, frame :: frames => do
      let first ← r.step now source frame
      match first.failure with
      | some _ => return first
      | none =>
          let later ← run now source first.state frames
          return { later with records := first.records ++ later.records }

end

/-- Where the frame rate of a recording comes from. -/
def fpsSource (settings : Settings) (recording : Recording) : FpsSource :=
  if recording.hasTimestamps then .timestamps else .constant settings.replay.fallbackFps

/-- Replays a recording; a pipeline is refused only for settings that do not pass their check. -/
def ofRecording {m : Type → Type} [Monad m] (now : m String) (settings : Settings)
    (sink : EventSink) (source : String) (recording : Recording) :
    m (Except RiskSettingsError (Progress Replay)) :=
  match Pipeline.ofSettings settings.risk (fpsSource settings recording)
      settings.output.maxPendingEvents with
  | .error e => return .error e
  | .ok pipeline => .ok <$> run now source ⟨pipeline, sink⟩ recording.frames

end Replay

end ObstacleWatch
