import ObstacleWatch.Number.Text
import ObstacleWatch.Settings.Condition

/-!
# Risk settings

The thresholds of the assessment, their usual values, and the conditions under which they make
sense.  `RiskSettings.check` names the first condition that is broken.
-/

namespace ObstacleWatch

structure RiskSettings where
  /-- The part of the frame's width, centred, that counts as straight ahead. -/
  centerBandRatio : Float
  /-- The wider part that counts as roughly ahead. -/
  nearCenterBandRatio : Float
  /-- The weight of the newest sample in the distance average. -/
  emaAlpha : Float
  /-- The least closing rate that counts as approaching. -/
  closingRateMin : Float
  /-- Frames of approach before an object straight ahead can be a warning. -/
  streakWarn : Nat
  /-- Frames of approach before an object roughly ahead can call for caution. -/
  streakCaution : Nat
  /-- The longest time to collision of a warning. -/
  pttcWarn : Float
  /-- The longest time to collision that calls for caution. -/
  pttcCaution : Float
  /-- The part of the frame's height from which a box counts as mega-close. -/
  megaCloseHeightRatio : Float
  /-- The part of the frame's area from which a box counts as mega-close. -/
  megaCloseAreaRatio : Float
  /-- Frames that a step down waits after the last step up. -/
  hysteresisFrames : Nat
  /-- Frames without a detection after which a track is forgotten. -/
  staleFrames : Nat
  /-- The weight of each class in the score; every class at most once. -/
  classWeights : List (String × Float)
  /-- The share of the bonus for objects straight ahead. -/
  centerBonus : Float
  /-- The share of the bonus for approaching objects. -/
  approachBonus : Float

inductive RiskSettingsError where
  | notInUnitInterval (field : String) (value : Float)
  | bandsCrossed (near center : Float)
  | notNonNegative (field : String) (value : Float)
  | notPositiveSeconds (field : String) (value : Float)
  | streaksCrossed (caution warn : Nat)
  | badClassWeight (className : String) (weight : Float)

namespace RiskSettingsError

def message : RiskSettingsError → String
  | notInUnitInterval field value => s!"{field} must be in (0, 1], got {plain value}"
  | bandsCrossed near center =>
      s!"near_center_band_ratio ({plain near}) must not be narrower than " ++
        s!"center_band_ratio ({plain center})"
  | notNonNegative field value => s!"{field} must be a non-negative number, got {plain value}"
  | notPositiveSeconds field value =>
      s!"{field} must be a positive number of seconds, got {plain value}"
  | streaksCrossed caution warn =>
      s!"streak_caution ({caution}) must not exceed streak_warn ({warn})"
  | badClassWeight className weight =>
      "class weight for '" ++ className ++
        s!"' must be a non-negative number, got {plain weight}"

end RiskSettingsError

namespace RiskSettings

def default : RiskSettings where
  centerBandRatio := 0.45
  nearCenterBandRatio := 0.65
  emaAlpha := 0.35
  closingRateMin := 0.02
  streakWarn := 8
  streakCaution := 4
  pttcWarn := 2
  pttcCaution := 4
  megaCloseHeightRatio := 0.55
  megaCloseAreaRatio := 0.35
  hysteresisFrames := 10
  staleFrames := 30
  classWeights := [("Person", 1), ("Cart", 0.8)]
  centerBonus := 0.2
  approachBonus := 0.2

/-- The weight of a class; a class without an entry weighs one. -/
def classWeight (s : RiskSettings) (className : String) : Float :=
  (s.classWeights.lookup className).getD 1

def checkWeights : List (String × Float) → Except RiskSettingsError Unit
  | [] => .ok ()
  | (className, weight) :: rest => do
      require (IsAmount weight) (.badClassWeight className weight)
      checkWeights rest

/-- Checks all conditions, in a fixed order, up to the first that is broken. -/
def check (s : RiskSettings) : Except RiskSettingsError Unit := do
  require (IsShare s.emaAlpha) (.notInUnitInterval "ema_alpha" s.emaAlpha)
  require (IsShare s.centerBandRatio) (.notInUnitInterval "center_band_ratio" s.centerBandRatio)
  require (IsShare s.nearCenterBandRatio)
    (.notInUnitInterval "near_center_band_ratio" s.nearCenterBandRatio)
  require (s.centerBandRatio ≤ s.nearCenterBandRatio)
    (.bandsCrossed s.nearCenterBandRatio s.centerBandRatio)
  require (IsShare s.megaCloseHeightRatio)
    (.notInUnitInterval "mega_close_boxh_ratio" s.megaCloseHeightRatio)
  require (IsShare s.megaCloseAreaRatio)
    (.notInUnitInterval "mega_close_area_ratio" s.megaCloseAreaRatio)
  require (IsAmount s.closingRateMin) (.notNonNegative "closing_rate_min" s.closingRateMin)
  require (IsDuration s.pttcWarn) (.notPositiveSeconds "pttc_warn_s" s.pttcWarn)
  require (IsDuration s.pttcCaution) (.notPositiveSeconds "pttc_caution_s" s.pttcCaution)
  require (s.streakCaution ≤ s.streakWarn) (.streaksCrossed s.streakCaution s.streakWarn)
  require (IsAmount s.centerBonus) (.notNonNegative "center_bonus" s.centerBonus)
  require (IsAmount s.approachBonus) (.notNonNegative "approach_bonus" s.approachBonus)
  checkWeights s.classWeights

end RiskSettings

end ObstacleWatch
