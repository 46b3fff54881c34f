/-!
# Frame rate from timestamps

The frame rate is smoothed over the intervals between timestamps that move forward.  Timestamps that
are not finite, repeated or earlier than one before leave the estimate as it is.
-/

namespace ObstacleWatch

/-- The latest timestamp and the estimate in frames per second. -/
structure FrameRate where
  latest : Option Float
  fps : Float

namespace FrameRate

def initial : FrameRate := ⟨none, 0⟩

/-- The estimate after one more interval; the first one is taken as it is. -/
def smooth (fps interval : Float) : Float :=
  let instant := 1 / interval
  if fps ≤ 0 then instant else 0.9 * fps + 0.1 * instant

def tick (r : FrameRate) (timestamp : Float) : FrameRate :=
  if timestamp.isFinite then
    match r.latest with
    | none => ⟨some timestamp, r.fps⟩
    | some latest =>
        let interval := timestamp - latest
        ⟨some (if latest < timestamp then timestamp else latest),
          if 0 < interval then smooth r.fps interval else r.fps⟩
  else r

end FrameRate

end ObstacleWatch
