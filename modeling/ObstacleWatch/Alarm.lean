import ObstacleWatch.Assessment

/-!
# Alarm events

The gate turns assessments into events.  A frame whose level differs from the one before raises a
level change; after it, every tracked object that is a warning now and was none on the frame before
raises a warning onset, and every unrecognised object that is a warning raises one on each frame.
-/

namespace ObstacleWatch

/-- A snapshot of an object at the start of a warning. -/
structure WarnOnset where
  frame : Nat
  trackId : Int
  className : String
  score : Float
  pttc : Float
  distance : Float
  closingRate : Float
  box : Box

namespace WarnOnset

def ofObject (frame : Nat) (o : AssessedObject) : WarnOnset where
  frame
  trackId := o.detection.trackId
  className := o.detection.className
  score := o.metrics.score
  pttc := o.metrics.pttc
  distance := o.metrics.distance
  closingRate := o.metrics.closingRate
  box := o.detection.box

def fields (w : WarnOnset) : List (String × Json.Value) :=
  [("frame_index", .ofInt w.frame),
    ("track_id", .ofInt w.trackId),
    ("class_name", .str w.className),
    ("score", .ofFloat w.score),
    ("pttc_s", .ofFloat w.pttc),
    ("dist_proxy", .ofFloat w.distance),
    ("closing_rate", .ofFloat w.closingRate),
    ("bbox", w.box.toJson)]

end WarnOnset

/-- A change of the frame's level; the object is the most dangerous one, if there is any. -/
structure LevelChange where
  frame : Nat
  before : DangerLevel
  after : DangerLevel
  object : Option AssessedObject

inductive AlarmEvent where
  | levelChanged (change : LevelChange)
  | warnOnset (onset : WarnOnset)

namespace AlarmEvent

def toJson : AlarmEvent → Json.Value
  | levelChanged c =>
      .record [
        ("event", .str "level_changed"),
        ("frame_index", .ofInt c.frame),
        ("from", c.before.toJson),
        ("to", c.after.toJson),
        ("object",
          match c.object with
          | some o => o.toJson
          | none => .null)]
  | warnOnset w => .record (("event", .str "warn_onset") :: w.fields)

end AlarmEvent

namespace LevelChange

def record (c : LevelChange) : Log.Record :=
  let object :=
    match c.object with
    | some o => o.summary
    | none => "no detections"
  ⟨.info, .alarm, s!"🔔 Frame {c.frame}: {c.before.name} → {c.after.name} ({object})"⟩

end LevelChange

/-- The class name and number of a tracked object. -/
abbrev AlarmKey := String × Int

/-- The level of the last frame and the tracked objects that were warnings on it. -/
structure AlarmGate where
  level : DangerLevel
  warned : List AlarmKey

namespace AssessedObject

def IsWarn (o : AssessedObject) : Prop :=
  o.metrics.level = .warn

instance (o : AssessedObject) : Decidable o.IsWarn :=
  inferInstanceAs (Decidable (_ = _))

def alarmKey (o : AssessedObject) : AlarmKey :=
  (o.detection.className, o.detection.trackId)

end AssessedObject

namespace AlarmGate

def initial : AlarmGate := ⟨.safe, []⟩

/-- The level change of a frame, if its level is a new one. -/
def levelChange? (g : AlarmGate) (a : FrameAssessment) : Option LevelChange :=
  if a.level = g.level then none else some ⟨a.frame, g.level, a.level, a.topObject?⟩

def Starts (g : AlarmGate) (o : AssessedObject) : Prop :=
  o.IsWarn ∧ ¬(o.detection.IsTracked ∧ o.alarmKey ∈ g.warned)

instance (g : AlarmGate) (o : AssessedObject) : Decidable (g.Starts o) :=
  inferInstanceAs (Decidable (_ ∧ ¬(_ ∧ _)))

/-- The warning onsets of a frame, in the order of its objects. -/
def onsets (g : AlarmGate) (a : FrameAssessment) : List WarnOnset :=
  (a.objects.filter fun o => decide (g.Starts o)).map (WarnOnset.ofObject a.frame)

/-- The keys of the tracked objects that are warnings. -/
def warnedKeys (a : FrameAssessment) : List AlarmKey :=
  (a.objects.filter fun o => decide (o.IsWarn ∧ o.detection.IsTracked)).map (·.alarmKey)

def events (g : AlarmGate) (a : FrameAssessment) : List AlarmEvent :=
  (g.levelChange? a).toList.map .levelChanged ++ (g.onsets a).map .warnOnset

def next (_ : AlarmGate) (a : FrameAssessment) : AlarmGate :=
  ⟨a.level, warnedKeys a⟩

def observe (g : AlarmGate) (a : FrameAssessment) : AlarmGate × List AlarmEvent :=
  (g.next a, g.events a)

def records (g : AlarmGate) (a : FrameAssessment) : List Log.Record :=
  (g.levelChange? a).toList.map (·.record)

end AlarmGate

end ObstacleWatch
