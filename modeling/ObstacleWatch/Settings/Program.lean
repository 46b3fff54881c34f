import ObstacleWatch.Failure
import ObstacleWatch.Settings.Risk

/-!
# Settings of the program

The risk settings together with what a replay needs to know: where the recordings are, where warning
onsets are written to, and how much is reported.
-/

namespace ObstacleWatch

structure ReplaySettings where
  /-- Where the recordings are looked for. -/
  inputDirectory : String
  /-- The extension of their names. -/
  extension : String
  /-- The frames per second of recordings without timestamps. -/
  fallbackFps : Float

structure OutputSettings where
  /-- The file that warning onsets are appended to, if any. -/
  eventsPath : Option String
  /-- The bound of the event queue. -/
  maxPendingEvents : Nat

structure LogSettings where
  /-- The directives of the log filter. -/
  level : String

structure Settings where
  risk : RiskSettings
  replay : ReplaySettings
  output : OutputSettings
  logging : LogSettings

inductive SettingsError where
  /-- The text is not a document with the known fields. -/
  | malformed
  | badRisk (error : RiskSettingsError)
  | badFallbackFps (fps : Float)
  | noRoomForEvents

namespace SettingsError

def failure : SettingsError → Failure
  | malformed => .of "not a document of settings"
  | badRisk error => (Failure.of error.message).during "invalid risk section"
  | badFallbackFps fps =>
      .of s!"replay.fallback_fps must be a non-negative number, got {plain fps}"
  | noRoomForEvents => .of "output.max_pending_events must be at least 1"

end SettingsError

def ReplaySettings.default : ReplaySettings :=
  ⟨"recordings", "jsonl", 30⟩

def OutputSettings.default : OutputSettings :=
  ⟨some "runs_obstacle/events.jsonl", 256⟩

def LogSettings.default : LogSettings :=
  ⟨"cart_obstacle_risk=info,obstacle_replay=info"⟩

namespace Settings

def default : Settings :=
  ⟨.default, .default, .default, .default⟩

/-- Checks all conditions up to the first that is broken. -/
def check (s : Settings) : Except SettingsError Unit := do
  s.risk.check.mapError .badRisk
  require (IsAmount s.replay.fallbackFps) (.badFallbackFps s.replay.fallbackFps)
  require (0 < s.output.maxPendingEvents) .noRoomForEvents

end Settings

end ObstacleWatch
