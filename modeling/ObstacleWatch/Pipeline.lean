import ObstacleWatch.Alarm
import ObstacleWatch.Counters
import ObstacleWatch.EventQueue
import ObstacleWatch.FrameRate

/-!
# The pipeline of one camera

Frames are numbered from zero and go through the frame rate, the risk engine, the assessment, the
alarm gate and the event queue, and everything is counted.  Empty frames take the same way, so that
tracks go stale on them too.
-/

namespace ObstacleWatch

inductive FpsSource where
  | timestamps
  | constant (fps : Float)

structure Frame where
  size : FrameSize
  timestamp : Option Float
  detections : List Detection

structure Pipeline where
  engine : RiskEngine
  fpsSource : FpsSource
  frameRate : FrameRate
  alarms : AlarmGate
  queue : BoundedQueue AlarmEvent
  counters : Counters
  nextFrame : Nat
  /-- The number of tracks reaped in all when the counters were last brought up to date. -/
  lastReaped : Nat

structure FrameOutcome where
  assessment : FrameAssessment
  report : EngineReport
  /-- The events of the frame, whether or not the queue had room for them. -/
  events : List AlarmEvent
  records : List Log.Record

namespace AlarmEvent

def counter : AlarmEvent → Counters.Name
  | levelChanged _ => .levelChanges
  | warnOnset _ => .warnOnsets

end AlarmEvent

namespace Counters

def countEvents (c : Counters) (events : List AlarmEvent) : Counters :=
  events.foldl (fun c event => c.add event.counter 1) c

/-- Counts detections, and the frame if it has any. -/
def countDetections (c : Counters) (n : Nat) : Counters :=
  if 0 < n then (c.add .framesWithDetections 1).add .detections n.toUInt64 else c

def countLevel (c : Counters) : DangerLevel → Counters
  | .safe => c
  | .caution => c.add .cautionFrames 1
  | .warn => c.add .warnFrames 1

/-- Counts a frame, with the tracks reaped since the last one, and sets the active tracks. -/
def countFrame (c : Counters) (level : DangerLevel) (detections reaped active : Nat) : Counters :=
  ((((c.add .totalFrames 1).countDetections detections).countLevel level).add .tracksReaped
    reaped.toUInt64).set .activeTracks active.toUInt64

end Counters

namespace Pipeline

def ofSettings (settings : RiskSettings) (fpsSource : FpsSource) (capacity : Nat) :
    Except RiskSettingsError Pipeline := do
  let engine ← RiskEngine.ofSettings settings
  return ⟨engine, fpsSource, .initial, .initial, .ofCapacity capacity, .zero, 0, 0⟩

def rateAfter (p : Pipeline) (timestamp : Option Float) : FrameRate :=
  match p.fpsSource, timestamp with
  | .timestamps, some t => p.frameRate.tick t
  | _, _ => p.frameRate

/-- The frames per second that a frame is assessed with. -/
def fpsOf (p : Pipeline) (rate : FrameRate) : Float :=
  match p.fpsSource with
  | .timestamps => rate.fps
  | .constant fps => fps

def process (p : Pipeline) (frame : Frame) : Pipeline × FrameOutcome :=
  let rate := p.rateAfter frame.timestamp
  let fps := p.fpsOf rate
  let (engine, report) := p.engine.update ⟨frame.size, p.nextFrame, fps⟩ frame.detections
  let assessment := FrameAssessment.ofLists p.nextFrame fps frame.detections report.metrics
  let (alarms, events) := p.alarms.observe assessment
  let counters :=
    (p.counters.countEvents events).countFrame assessment.level frame.detections.length
      (engine.reapedTotal - p.lastReaped) engine.tracks.size
  let records :=
    report.records p.nextFrame ++ p.alarms.records assessment ++ p.queue.publishRecords events ++
      [⟨.debug, .pipeline, s!"Frame {p.nextFrame}: {assessment.summary}"⟩]
  (⟨engine, p.fpsSource, rate, alarms, p.queue.publishAll events, counters, p.nextFrame + 1,
      engine.reapedTotal⟩,
    ⟨assessment, report, events, records⟩)

def drainEvents (p : Pipeline) : Pipeline × List AlarmEvent :=
  let (queue, events) := p.queue.drain
  ({ p with queue }, events)

def currentLevel (p : Pipeline) : DangerLevel :=
  p.alarms.level

end Pipeline

end ObstacleWatch
