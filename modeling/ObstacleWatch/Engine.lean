import ObstacleWatch.Score
import ObstacleWatch.Track

/-!
# The risk engine

The engine assesses the detections of a frame one after the other.  For each it finds or starts the
track, feeds geometry, motion and approach into it, and passes the candidate level through the
hysteresis gate.  What happened to a detection is a `Sighting`; the metrics handed out and the log
are read off it.  After the last detection the tracks of unrecognised objects are dropped, and the
stale ones are reaped.
-/

namespace ObstacleWatch

structure RiskMetrics where
  /-- The stabilised level. -/
  level : DangerLevel
  /-- The ranking score, of meaning only within a frame. -/
  score : Float
  /-- The predicted time to collision in seconds. -/
  pttc : Float
  /-- The smoothed distance proxy. -/
  distance : Float
  closingRate : Float
  inCenter : Bool
  inNearCenter : Bool
  approaching : Bool
  megaClose : Bool
  boxHeight : Float
  area : Float

namespace RiskMetrics

def isClosing (m : RiskMetrics) : Bool :=
  decide (m.pttc < neverCollides)

def toJson (m : RiskMetrics) : Json.Value :=
  .record [
    ("risk_level", m.level.toJson),
    ("risk_name", .str m.level.name),
    ("score", .ofFloat m.score),
    ("pttc_s", .ofFloat m.pttc),
    ("dist_proxy", .ofFloat m.distance),
    ("closing_rate", .ofFloat m.closingRate),
    ("in_center", .bool m.inCenter),
    ("in_near_center", .bool m.inNearCenter),
    ("approaching", .bool m.approaching),
    ("mega_close", .bool m.megaClose),
    ("box_h", .ofFloat m.boxHeight),
    ("area", .ofFloat m.area)]

end RiskMetrics

structure FrameContext where
  size : FrameSize
  index : Nat
  fps : Float

structure Sighting where
  /-- The frame the detection belongs to. -/
  frame : Nat
  detection : Detection
  key : TrackKey
  /-- The track was started by this detection. -/
  isNew : Bool
  /-- The streak after this detection. -/
  streak : Nat
  candidate : DangerLevel
  /-- The stabilised level before this detection. -/
  previous : DangerLevel
  transition : GateTransition
  metrics : RiskMetrics

namespace Sighting

def startRecord (s : Sighting) : List Log.Record :=
  if s.isNew then
    [⟨.debug, .tracks, s!"New track {s.key.description} at frame {s.frame}"⟩]
  else []

def levelRecord (s : Sighting) : List Log.Record :=
  let id := s.detection.trackId
  let levels := s!"{s.previous.name} → {s.metrics.level.name} at frame {s.frame}"
  match s.transition with
  | .escalated =>
      [⟨.info, .engine,
        s!"⚠️  {s.detection.className} id={id} escalated {levels} " ++
          s!"(pTTC={fixed 2 s.metrics.pttc}s, streak={s.streak}, " ++
          s!"mega_close={s.metrics.megaClose})"⟩]
  | .decayed => [⟨.debug, .engine, s!"{s.detection.className} id={id} cleared {levels}"⟩]
  | .holding | .unchanged => []

def records (s : Sighting) : List Log.Record :=
  s.startRecord ++ s.levelRecord

end Sighting

def assessDetection (settings : RiskSettings) (ctx : FrameContext) (key : TrackKey) (isNew : Bool)
    (t : Track) (d : Detection) : Track × Sighting :=
  let geometry := BoxGeometry.measure settings ctx.size d
  let (motion, sample) := t.motion.update geometry.distance settings.emaAlpha ctx.fps
  let approaching := isApproaching settings sample.closingRate
  let streak := nextStreak t.streak approaching geometry.inCenter geometry.inNearCenter
  let pttc := timeToCollision sample.distance sample.closingRate
  let candidate := candidateLevel settings
    ⟨geometry.inCenter, geometry.inNearCenter, geometry.megaClose, streak, pttc⟩
  let (gate, transition) := t.gate.step candidate settings.hysteresisFrames
  let metrics : RiskMetrics :=
    { level := gate.level
      score := score settings
        ⟨d.className, gate.level, sample.distance, pttc, geometry.inCenter, approaching⟩
      pttc
      distance := sample.distance
      closingRate := sample.closingRate
      inCenter := geometry.inCenter
      inNearCenter := geometry.inNearCenter
      approaching
      megaClose := geometry.megaClose
      boxHeight := geometry.boxHeight
      area := geometry.area }
  (⟨motion, streak, gate, t.lastSeen⟩,
    ⟨ctx.index, d, key, isNew, streak, candidate, t.gate.level, transition, metrics⟩)

/-- Assesses one detection at a position of a frame. -/
def sight (settings : RiskSettings) (ctx : FrameContext) (position : Nat) (tracks : TrackMap)
    (d : Detection) : TrackMap × Sighting :=
  let key := TrackKey.ofDetection ctx.index position d
  let (t, sighting) :=
    assessDetection settings ctx key (tracks.get? key).isNone (tracks.seen key ctx.index) d
  (tracks.insert key t, sighting)

def sightAll (settings : RiskSettings) (ctx : FrameContext) :
    Nat → TrackMap → List Detection → TrackMap × List Sighting
  | _, tracks, [] => (tracks, [])
  | position, tracks, d :: ds =>
      let (tracks, s) := sight settings ctx position tracks d
      let (tracks, ss) := sightAll settings ctx (position + 1) tracks ds
      (tracks, s :: ss)

/-- Drops the tracks of the keys that live for one frame only. -/
def dropEphemeral (tracks : TrackMap) (sightings : List Sighting) : TrackMap :=
  (sightings.filter (·.key.isEphemeral)).foldl (fun m s => m.erase s.key) tracks

/-- The engine: its settings, its tracks, and how many tracks it has reaped. -/
structure RiskEngine where
  settings : RiskSettings
  tracks : TrackMap
  reapedTotal : Nat

structure EngineReport where
  sightings : List Sighting
  /-- The tracks reaped on this frame. -/
  reaped : Nat
  /-- The tracks left after this frame. -/
  active : Nat

namespace EngineReport

def metrics (r : EngineReport) : List RiskMetrics :=
  r.sightings.map (·.metrics)

def reapRecord (frame : Nat) (r : EngineReport) : List Log.Record :=
  if 0 < r.reaped then
    [⟨.debug, .tracks, s!"Reaped {r.reaped} stale track(s) at frame {frame} ({r.active} active)"⟩]
  else []

def records (frame : Nat) (r : EngineReport) : List Log.Record :=
  r.sightings.flatMap (·.records) ++ r.reapRecord frame

end EngineReport

namespace RiskEngine

/-- An engine without tracks, for settings that pass their check. -/
def ofSettings (settings : RiskSettings) : Except RiskSettingsError RiskEngine := do
  settings.check
  return ⟨settings, .empty, 0⟩

def update (e : RiskEngine) (ctx : FrameContext) (detections : List Detection) :
    RiskEngine × EngineReport :=
  let (tracks, sightings) := sightAll e.settings ctx 0 e.tracks detections
  let kept := dropEphemeral tracks sightings
  let reaped := kept.staleCount ctx.index e.settings.staleFrames
  let left := kept.reap ctx.index e.settings.staleFrames
  (⟨e.settings, left, e.reapedTotal + reaped⟩, ⟨sightings, reaped, left.size⟩)

end RiskEngine

end ObstacleWatch
