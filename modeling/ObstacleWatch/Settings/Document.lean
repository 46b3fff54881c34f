import ObstacleWatch.Settings.Program
import ObstacleWatch.Yaml.Record

/-!
# Settings as a document

Settings are written as a YAML document of four sections.  Every field may be left out and keeps its
usual value then; fields that are not known are refused.
-/

namespace ObstacleWatch

open Yaml (Node)

def greatestWord : Nat := Nat.pow 2 32 - 1

def greatestLongWord : Nat := Nat.pow 2 64 - 1

namespace RiskSettings

/-- The names of the fields of the risk section. -/
def fieldNames : List String :=
  ["center_band_ratio", "near_center_band_ratio", "ema_alpha", "closing_rate_min", "streak_warn",
    "streak_caution", "pttc_warn_s", "pttc_caution_s", "mega_close_boxh_ratio",
    "mega_close_area_ratio", "hysteresis_frames", "stale_frames", "class_weights", "center_bonus",
    "approach_bonus"]

def ofNode? (root n : Node) : Option RiskSettings := do
  let number := fun usual => fieldOr usual (Node.float? root)
  let count := fun usual => fieldOr usual (Node.natUpTo? greatestWord root)
  match ← Node.fields? fieldNames root n with
  | [centerBandRatio, nearCenterBandRatio, emaAlpha, closingRateMin, streakWarn, streakCaution,
      pttcWarn, pttcCaution, megaCloseHeightRatio, megaCloseAreaRatio, hysteresisFrames,
      staleFrames, classWeights, centerBonus, approachBonus] =>
      some {
        centerBandRatio := ← number default.centerBandRatio centerBandRatio
        nearCenterBandRatio := ← number default.nearCenterBandRatio nearCenterBandRatio
        emaAlpha := ← number default.emaAlpha emaAlpha
        closingRateMin := ← number default.closingRateMin closingRateMin
        streakWarn := ← count default.streakWarn streakWarn
        streakCaution := ← count default.streakCaution streakCaution
        pttcWarn := ← number default.pttcWarn pttcWarn
        pttcCaution := ← number default.pttcCaution pttcCaution
        megaCloseHeightRatio := ← number default.megaCloseHeightRatio megaCloseHeightRatio
        megaCloseAreaRatio := ← number default.megaCloseAreaRatio megaCloseAreaRatio
        hysteresisFrames := ← count default.hysteresisFrames hysteresisFrames
        staleFrames :=
          ← fieldOr default.staleFrames (Node.natUpTo? greatestLongWord root) staleFrames
        classWeights := ← fieldOr default.classWeights (Node.floatsByName? root) classWeights
        centerBonus := ← number default.centerBonus centerBonus
        approachBonus := ← number default.approachBonus approachBonus }
  | _ => none

end RiskSettings

def ReplaySettings.ofNode? (root n : Node) : Option ReplaySettings := do
  match ← Node.fields? ["input_dir", "extension", "fallback_fps"] root n with
  | [inputDirectory, extension, fallbackFps] =>
      some {
        inputDirectory := ← fieldOr default.inputDirectory (Node.text? root) inputDirectory
        extension := ← fieldOr default.extension (Node.text? root) extension
        fallbackFps := ← fieldOr default.fallbackFps (Node.float? root) fallbackFps }
  | _ => none

def OutputSettings.ofNode? (root n : Node) : Option OutputSettings := do
  match ← Node.fields? ["events_path", "max_pending_events"] root n with
  | [eventsPath, maxPendingEvents] =>
      some {
        eventsPath := ← fieldOr default.eventsPath (Node.optionalText? root) eventsPath
        maxPendingEvents :=
          ← fieldOr default.maxPendingEvents (Node.natUpTo? greatestLongWord root)
            maxPendingEvents }
  | _ => none

def LogSettings.ofNode? (root n : Node) : Option LogSettings := do
  match ← Node.fields? ["level"] root n with
  | [level] => some { level := ← fieldOr default.level (Node.text? root) level }
  | _ => none

namespace Settings

def ofNode? (root n : Node) : Option Settings := do
  match ← Node.fields? ["risk", "replay", "output", "logging"] root n with
  | [risk, replay, output, logging] =>
      some {
        risk := ← fieldOr .default (RiskSettings.ofNode? root) risk
        replay := ← fieldOr .default (ReplaySettings.ofNode? root) replay
        output := ← fieldOr .default (OutputSettings.ofNode? root) output
        logging := ← fieldOr .default (LogSettings.ofNode? root) logging }
  | _ => none

/-- Reads a document; a text without any document keeps all usual values. -/
def read? (text : List Char) : Option Settings :=
  match Node.ofChars text with
  | .ok (some root) => ofNode? root root
  | .ok none => some default
  | .error _ => none

def ofChars (text : List Char) : Except SettingsError Settings :=
  match read? text with
  | none => .error .malformed
  | some s => do
      s.check
      return s

end Settings

end ObstacleWatch
