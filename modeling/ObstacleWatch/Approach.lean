import ObstacleWatch.DangerLevel
import ObstacleWatch.Geometry

/-!
# Approach of an object

From the motion of a track come the predicted time to collision, whether the object is approaching,
and the approach streak.  Together with the geometry of the box they give the candidate level, which
does not yet know the levels before it.
-/

namespace ObstacleWatch

/-- The time to collision of an object that is not closing, in seconds. -/
def neverCollides : Float := 1e9

/-- Closing rates up to this one count as standing still. -/
def leastClosingRate : Float := 1e-9

/-- Seconds until the smoothed distance reaches zero at the current closing rate. -/
def timeToCollision (distance closingRate : Float) : Float :=
  if leastClosingRate < closingRate then distance / closingRate else neverCollides

/-- The object closes fast enough to count as approaching. -/
def isApproaching (settings : RiskSettings) (closingRate : Float) : Bool :=
  decide (settings.closingRateMin ≤ closingRate)

def greatestStreak : Nat := Nat.pow 2 32 - 1

/-- The streak rises by one on a frame that approaches inside either band, and falls by one, not
below zero, on any other. -/
def nextStreak (streak : Nat) (approaching inCenter inNearCenter : Bool) : Nat :=
  if approaching && (inCenter || inNearCenter) then min (streak + 1) greatestStreak
  else streak - 1

structure ApproachView where
  inCenter : Bool
  inNearCenter : Bool
  megaClose : Bool
  streak : Nat
  pttc : Float

/-- The candidate level.  A mega-close object roughly ahead is a warning at once; otherwise warning
and caution need a streak and a short time to collision. -/
def candidateLevel (settings : RiskSettings) (v : ApproachView) : DangerLevel :=
  if v.megaClose ∧ v.inNearCenter then .warn
  else if v.inCenter ∧ settings.streakWarn ≤ v.streak ∧ v.pttc ≤ settings.pttcWarn then .warn
  else if v.inNearCenter ∧ settings.streakCaution ≤ v.streak ∧ v.pttc ≤ settings.pttcCaution then
    .caution
  else .safe

end ObstacleWatch
