import ObstacleWatch.Engine

/-!
# Assessment of a frame

A frame's objects are its detections with their metrics.  The most dangerous one has the highest
level, and within the level the highest score; the earlier object wins ties, and a score that is not
a number beats nothing and is beaten by nothing of its level.
-/

namespace ObstacleWatch

structure AssessedObject where
  detection : Detection
  metrics : RiskMetrics

namespace AssessedObject

/-- The first object is more dangerous than the second. -/
def Outranks (a b : AssessedObject) : Prop :=
  b.metrics.level < a.metrics.level ∨
    (a.metrics.level = b.metrics.level ∧ b.metrics.score < a.metrics.score)

instance (a b : AssessedObject) : Decidable (a.Outranks b) :=
  inferInstanceAs (Decidable (_ ∨ _))

def summary (o : AssessedObject) : String :=
  let pttc := if neverCollides ≤ o.metrics.pttc then "inf" else fixed 1 o.metrics.pttc ++ "s"
  s!"{o.metrics.level.name} | {o.detection.className} id={o.detection.trackId} | pTTC={pttc}" ++
    s!" | dist={fixed 4 o.metrics.distance} | center={o.metrics.inCenter}" ++
    s!" | approaching={o.metrics.approaching}"

def toJson (o : AssessedObject) : Json.Value :=
  .record [("detection", o.detection.toJson), ("metrics", o.metrics.toJson)]

end AssessedObject

structure FrameAssessment where
  frame : Nat
  fps : Float
  objects : List AssessedObject

namespace FrameAssessment

/-- Pairs detections with metrics as far as both go. -/
def ofLists (frame : Nat) (fps : Float) (detections : List Detection)
    (metrics : List RiskMetrics) : FrameAssessment :=
  ⟨frame, fps, List.zipWith AssessedObject.mk detections metrics⟩

/-- The most dangerous of a leader, at its position, and the objects from a position on. -/
def leader (best : Nat × AssessedObject) : Nat → List AssessedObject → Nat × AssessedObject
  | _, [] => best
  | position, o :: os =>
      leader (if o.Outranks best.2 then (position, o) else best) (position + 1) os

def top? (a : FrameAssessment) : Option (Nat × AssessedObject) :=
  match a.objects with
  | [] => none
  | o :: os => some (leader (0, o) 1 os)

def topIndex? (a : FrameAssessment) : Option Nat :=
  a.top?.map Prod.fst

def topObject? (a : FrameAssessment) : Option AssessedObject :=
  a.top?.map Prod.snd

theorem topObject?_eq_none_iff {a : FrameAssessment} : a.topObject? = none ↔ a.objects = [] := by
  rw [topObject?, Option.map_eq_none_iff, top?]
  cases a.objects with
  | nil => simp
  | cons o os => simp

/-- The level of the most dangerous object; a frame without objects is safe. -/
def level (a : FrameAssessment) : DangerLevel :=
  match a.topObject? with
  | some o => o.metrics.level
  | none => .safe

def objectType? (a : FrameAssessment) : Option String :=
  a.topObject?.map (·.detection.className)

def summary (a : FrameAssessment) : String :=
  match a.topObject? with
  | some o => s!"BEST: {o.summary} | fps={fixed 1 a.fps}"
  | none => s!"No detections | fps={fixed 1 a.fps}"

def toJson (a : FrameAssessment) : Json.Value :=
  .record [
    ("frame_index", .ofInt a.frame),
    ("fps", .ofFloat a.fps),
    ("objects", .array (a.objects.map (·.toJson))),
    ("highest_risk",
      match a.topIndex? with
      | some position => .ofInt position
      | none => .null)]

end FrameAssessment

end ObstacleWatch
