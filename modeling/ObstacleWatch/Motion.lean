import ObstacleWatch.Geometry

/-!
# Motion of a track

The distance proxy of a track is smoothed by an exponential average.  The drop of the average from
one frame to the next, times the frame rate, is the closing rate; it is never negative, and zero
whenever it cannot be computed.
-/

namespace ObstacleWatch

/-- The average after the latest and the second latest sample. -/
structure DistanceAverage where
  current : Option Float
  previous : Option Float

structure MotionSample where
  /-- The smoothed distance proxy. -/
  distance : Float
  /-- Units of the proxy per second. -/
  closingRate : Float

namespace DistanceAverage

def empty : DistanceAverage := ⟨none, none⟩

/-- Frame rates up to this one are too slow to tell a closing rate. -/
def leastFps : Float := 1e-6

/-- The average after one more sample; the first sample is taken as it is. -/
def smooth (alpha sample : Float) : Option Float → Float
  | none => sample
  | some previous => alpha * sample + (1 - alpha) * previous

def closingRate (fps : Float) (before after : Float) : Float :=
  if fps.isFinite ∧ leastFps < fps then
    let rate := (before - after) * fps
    if rate.isFinite then atLeast 0 rate else 0
  else 0

def update (a : DistanceAverage) (sample alpha fps : Float) : DistanceAverage × MotionSample :=
  let distance := smooth alpha sample a.current
  (⟨some distance, a.current⟩,
    ⟨distance,
      match a.current with
      | none => 0
      | some before => closingRate fps before distance⟩)

end DistanceAverage

end ObstacleWatch
