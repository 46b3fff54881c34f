/-!
# Counters

What a pipeline counts.  The counters have 64 bits and start again from zero when they overflow; the
number of active tracks is set and not counted.
-/

namespace ObstacleWatch

structure Counters where
  totalFrames : UInt64
  framesWithDetections : UInt64
  detections : UInt64
  cautionFrames : UInt64
  warnFrames : UInt64
  levelChanges : UInt64
  warnOnsets : UInt64
  tracksReaped : UInt64
  activeTracks : UInt64
  deriving Repr, DecidableEq

namespace Counters

def zero : Counters := ⟨0, 0, 0, 0, 0, 0, 0, 0, 0⟩

inductive Name where
  | totalFrames
  | framesWithDetections
  | detections
  | cautionFrames
  | warnFrames
  | levelChanges
  | warnOnsets
  | tracksReaped
  | activeTracks
  deriving Repr, DecidableEq

def modify (c : Counters) (name : Name) (f : UInt64 → UInt64) : Counters :=
  match name with
  | .totalFrames => { c with totalFrames := f c.totalFrames }
  | .framesWithDetections => { c with framesWithDetections := f c.framesWithDetections }
  | .detections => { c with detections := f c.detections }
  | .cautionFrames => { c with cautionFrames := f c.cautionFrames }
  | .warnFrames => { c with warnFrames := f c.warnFrames }
  | .levelChanges => { c with levelChanges := f c.levelChanges }
  | .warnOnsets => { c with warnOnsets := f c.warnOnsets }
  | .tracksReaped => { c with tracksReaped := f c.tracksReaped }
  | .activeTracks => { c with activeTracks := f c.activeTracks }

def add (c : Counters) (name : Name) (n : UInt64) : Counters :=
  c.modify name (· + n)

def set (c : Counters) (name : Name) (n : UInt64) : Counters :=
  c.modify name fun _ => n

def toList (c : Counters) : List UInt64 :=
  [c.totalFrames, c.framesWithDetections, c.detections, c.cautionFrames, c.warnFrames,
    c.levelChanges, c.warnOnsets, c.tracksReaped, c.activeTracks]

end Counters

end ObstacleWatch
