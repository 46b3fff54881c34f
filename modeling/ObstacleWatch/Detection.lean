import ObstacleWatch.Json.Record

/-!
# Detections

What a detector and tracker deliver: boxes in pixels of the current frame, each with a class name
and the tracker's number for the object.  A negative number marks an object the tracker did not
recognise again.
-/

namespace ObstacleWatch

/-- A box with its left, top, right and bottom edge in pixels. -/
structure Box where
  left : Float32
  top : Float32
  right : Float32
  bottom : Float32

/-- The width and height of a frame in pixels. -/
structure FrameSize where
  width : Nat
  height : Nat
  deriving Repr, DecidableEq

namespace FrameSize

/-- The width as a floating-point number; widths have 32 bits. -/
def widthPx (size : FrameSize) : Float :=
  size.width.toUInt32.toFloat

/-- The height as a floating-point number; heights have 32 bits. -/
def heightPx (size : FrameSize) : Float :=
  size.height.toUInt32.toFloat

end FrameSize

/-- One detected object of a frame.  The class number and the confidence are only passed on. -/
structure Detection where
  trackId : Int
  classId : Nat
  className : String
  confidence : Float32
  box : Box

def untrackedId : Int := -1

namespace Detection

def IsTracked (d : Detection) : Prop :=
  0 ≤ d.trackId

instance (d : Detection) : Decidable d.IsTracked :=
  inferInstanceAs (Decidable (0 ≤ d.trackId))

/-- The middle between the left and the right edge. -/
def centerX (d : Detection) : Float :=
  0.5 * (widen d.box.left + widen d.box.right)

def bottomY (d : Detection) : Float :=
  widen d.box.bottom

end Detection

namespace Box

/-- A box in JSON is an array of its four edges. -/
def ofJson? (v : Json.Value) : Option Box :=
  match v.toListOf? Json.Value.toSingle? with
  | some [left, top, right, bottom] => some ⟨left, top, right, bottom⟩
  | _ => none

def toJson (b : Box) : Json.Value :=
  .array [.ofSingle b.left, .ofSingle b.top, .ofSingle b.right, .ofSingle b.bottom]

end Box

namespace Detection

/-- The names of the fields, in the order in which they are written. -/
def fieldNames : List String :=
  ["track_id", "class_id", "class_name", "confidence", "bbox"]

/-- Reads a detection; class name and box are required, and unknown members are passed over. -/
def ofJson? (v : Json.Value) : Option Detection := do
  match ← v.fields? fieldNames false with
  | [trackId, classId, some className, confidence, some box] =>
      let trackId ← fieldOr untrackedId (·.toIntIn? (-Int.pow 2 63) (Int.pow 2 63 - 1)) trackId
      let classId ← fieldOr 0 (·.toNatUpTo? (Nat.pow 2 32 - 1)) classId
      let className ← className.toText?
      let confidence ← fieldOr 0 (·.toSingle?) confidence
      let box ← Box.ofJson? box
      some ⟨trackId, classId, className, confidence, box⟩
  | _ => none

def toJson (d : Detection) : Json.Value :=
  .record [
    ("track_id", .ofInt d.trackId),
    ("class_id", .ofInt d.classId),
    ("class_name", .str d.className),
    ("confidence", .ofSingle d.confidence),
    ("bbox", d.box.toJson)]

end Detection

end ObstacleWatch
