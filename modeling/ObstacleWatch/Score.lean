import ObstacleWatch.DangerLevel
import ObstacleWatch.Geometry

/-!
# Ranking score

Within one frame objects of the same level are ranked by a score: the level counts a thousand, the
class a hundred, closeness and urgency add their weighted inverses, and lying straight ahead and
approaching each add a bonus.
-/

namespace ObstacleWatch

structure ScoreView where
  className : String
  level : DangerLevel
  distance : Float
  pttc : Float
  inCenter : Bool
  approaching : Bool

/-- Times to collision above this one add no urgency. -/
def urgencyCutoff : Float := 1e6

def closeness (distance : Float) : Float :=
  1 / atLeast 1e-6 distance

/-- The inverse time to collision, cut off near zero, and nothing for an object that is far off. -/
def urgency (pttc : Float) : Float :=
  if pttc ≤ urgencyCutoff then 1 / atLeast 1e-3 pttc else 0

def score (settings : RiskSettings) (v : ScoreView) : Float :=
  let levelPart := v.level.rankFloat * 1000
  let classPart := levelPart + settings.classWeight v.className * 100
  let closePart := classPart + 30 * closeness v.distance
  let urgentPart := closePart + 20 * urgency v.pttc
  let centerPart := if v.inCenter then urgentPart + 50 * settings.centerBonus else urgentPart
  if v.approaching then centerPart + 50 * settings.approachBonus else centerPart

end ObstacleWatch
