import ObstacleWatch.Proofs.StepRun
import ObstacleWatch.Proofs.UntrackedObjects
import ObstacleWatch.Proofs.UnusableRate

/-!
# Tracks between frames

Between frames an engine stores tracks of tracked objects only, and every stored track fits the
detections of its object since the track was started: how many of them there were shows in the
average and bounds the streak, and the latest of them was on the frame the track was last seen on.
The gate is within its hold, and holds nothing at the harmless level: a raise leads away from that
level, and a step down to it waits until the hold is used up.
-/

namespace ObstacleWatch

/-! ## The gate -/

theorem DangerLevel.ne_safe_of_lt {low high : DangerLevel} (hlt : low < high) : high ≠ .safe := by
  rintro rfl
  exact Nat.not_lt_zero _ (lt_iff_rank_lt.mp hlt)

namespace HysteresisGate

/-- The hold is at most a full one, and nothing is held at the harmless level. -/
structure WithinHold (fullHold : Nat) (g : HysteresisGate) : Prop where
  hold_le : g.hold ≤ fullHold
  hold_of_safe : g.level = .safe → g.hold = 0

variable {fullHold : Nat} {g : HysteresisGate}

theorem withinHold_initial (fullHold : Nat) : initial.WithinHold fullHold where
  hold_le := Nat.zero_le fullHold
  hold_of_safe := fun _ => rfl

theorem WithinHold.step (hg : g.WithinHold fullHold) (c : DangerLevel) :
    (g.step c fullHold).1.WithinHold fullHold := by
  rcases step_cases g c fullHold with
    ⟨hraise, hstep⟩ | ⟨hlow, -, hstep⟩ | ⟨-, -, hstep⟩ | ⟨-, hstep⟩
  · rw [hstep]
    exact ⟨Nat.le_refl fullHold, fun hsafe => absurd hsafe (DangerLevel.ne_safe_of_lt hraise)⟩
  · rw [hstep]
    have hle := hg.hold_le
    exact ⟨by simp only; omega, fun hsafe => absurd hsafe (DangerLevel.ne_safe_of_lt hlow)⟩
  · rw [hstep]
    exact ⟨Nat.zero_le fullHold, fun _ => rfl⟩
  · rw [hstep]
    exact hg

end HysteresisGate

/-! ## One track and its lifetime -/

/-- What a track says about the sightings since it was started. -/
structure FitsLifetime (settings : RiskSettings) (life : List Sighting) (t : Track) : Prop where
  started : ∃ first rest, life = first :: rest ∧ first.isNew = true ∧ ∀ s ∈ rest, s.isNew = false
  current : t.motion.current.isSome = true
  previous : t.motion.previous = none ↔ life.length = 1
  /-- The first detection shows no motion, so it does not count for the streak. -/
  streak : 0 < settings.closingRateMin → t.streak < life.length
  gate : t.gate.WithinHold settings.hysteresisFrames
  lastSeen : ∃ earlier s, life = earlier ++ [s] ∧ t.lastSeen = s.frame

variable {settings : RiskSettings} {key : TrackKey} {past life : List Sighting} {t : Track}

theorem not_approaching_of_first (ctx : FrameContext) (key : TrackKey) (d : Detection)
    (hmin : 0 < settings.closingRateMin) :
    (slotSight settings ctx key none d).2.metrics.approaching = false :=
  decide_eq_false (float_not_le_of_lt hmin)

theorem fitsLifetime_first (settings : RiskSettings) (ctx : FrameContext) (key : TrackKey)
    (d : Detection) :
    FitsLifetime settings [(slotSight settings ctx key none d).2]
      (slotSight settings ctx key none d).1 where
  started := (remembers_first settings ctx key d).started
  current := rfl
  previous := iff_of_true rfl rfl
  streak := by
    intro hmin
    have hstill : ¬(slotSight settings ctx key none d).2.ApproachesInBand := by
      intro happroaches
      rw [Sighting.ApproachesInBand, not_approaching_of_first ctx key d hmin] at happroaches
      exact Bool.false_ne_true happroaches.1
    have hle := slotSight_streak_le settings ctx key none d
    have hfresh : (Track.found ctx.index none).streak = 0 := rfl
    rw [if_neg hstill, hfresh] at hle
    rw [List.length_singleton]
    omega
  gate := by
    rw [slotSight_gate]
    exact (HysteresisGate.withinHold_initial settings.hysteresisFrames).step _
  lastSeen := ⟨[], _, rfl, rfl⟩

theorem FitsLifetime.sight (hlife : FitsLifetime settings life t) (ctx : FrameContext)
    (key : TrackKey) (d : Detection) :
    FitsLifetime settings (life ++ [(slotSight settings ctx key (some t) d).2])
      (slotSight settings ctx key (some t) d).1 where
  started := started_concat hlife.started rfl
  current := rfl
  previous := by
    obtain ⟨first, rest, rfl, -⟩ := hlife.started
    have hprevious : (slotSight settings ctx key (some t) d).1.motion.previous =
        t.motion.current := rfl
    have hcurrent : t.motion.current ≠ none := Option.isSome_iff_ne_none.mp hlife.current
    rw [hprevious]
    exact iff_of_false hcurrent (by simp)
  streak := by
    intro hmin
    have hbefore := hlife.streak hmin
    have hle := slotSight_streak_le settings ctx key (some t) d
    have hfound : (Track.found ctx.index (some t)).streak = t.streak := rfl
    rw [hfound] at hle
    rw [List.length_append, List.length_singleton]
    split at hle <;> omega
  gate := by
    rw [slotSight_gate]
    exact hlife.gate.step _
  lastSeen := ⟨life, _, rfl, rfl⟩

theorem History.fitsLifetime (hpast : History settings key past (some t)) :
    FitsLifetime settings (lifetime past) t :=
  of_lifetime (fun ctx d => fitsLifetime_first settings ctx key d)
    (fun _ _ ctx d hlife => hlife.sight ctx key d) hpast rfl

/-! ## Reachable engines -/

namespace RiskEngine

/-- The engine after some frames. -/
def after (e : RiskEngine) (frames : List EngineFrame) : RiskEngine :=
  stateAfter step EngineStep.engine e frames

theorem run_eq_runSteps (e : RiskEngine) (frames : List EngineFrame) :
    e.run frames = runSteps step EngineStep.engine e frames := by
  induction frames generalizing e with
  | nil => rfl
  | cons f fs ih => rw [run_cons, runSteps_cons, ih]

theorem getElem?_run_concat (e : RiskEngine) (frames : List EngineFrame) (f : EngineFrame) :
    (e.run (frames ++ [f]))[frames.length]? = some ((e.after frames).step f) := by
  have hlength : (runSteps step EngineStep.engine e frames).length = frames.length :=
    length_runSteps step EngineStep.engine e frames
  rw [run_eq_runSteps, runSteps_concat, ← hlength, List.getElem?_concat_length]
  rfl

theorem allTracked_after {e : RiskEngine} (he : e.tracks.AllTracked) (frames : List EngineFrame) :
    (e.after frames).tracks.AllTracked := by
  induction frames using List.reverseRecOn with
  | nil => exact he
  | append_singleton frames f ih =>
      rw [after, stateAfter_concat]
      exact allTracked_step ih f

/-- What the engine has of a tracked object after some frames is left by its sightings on them. -/
theorem history_after {engine : RiskEngine} (hnew : ofSettings settings = .ok engine)
    (name : String) (id : Int) (frames : List EngineFrame) :
    History settings (.object name id) (engine.sightingsOf (.object name id) frames)
      ((engine.after frames).tracks.get? (.object name id)) := by
  rcases List.eq_nil_or_concat' frames with rfl | ⟨frames, f, rfl⟩
  · obtain ⟨-, rfl⟩ := ofSettings_eq_ok_iff.mp hnew
    exact .start
  · have hlast := history_of_getElem?_run hnew name id (getElem?_run_concat engine frames f)
    have hall : (frames ++ [f]).take (frames.length + 1) = frames ++ [f] :=
      List.take_of_length_le (by simp)
    rw [hall] at hlast
    rw [after, stateAfter_concat]
    exact hlast

/-- The sightings of an object stand for its detections, each with the number of its frame. -/
theorem sightingsOf_detections (e : RiskEngine) (name : String) (id : Int)
    (frames : List EngineFrame) :
    (e.sightingsOf (.object name id) frames).map (fun s => (s.frame, s.detection)) =
      frames.flatMap fun f =>
        (f.detections.filter fun d => d.Shows name id).map fun d => (f.context.index, d) := by
  induction frames generalizing e with
  | nil => rfl
  | cons f fs ih =>
      have hmem : e.step f ∈ e.run [f] := by simp [run_cons]
      have hframe : ((e.step f).report.sightings.filter fun s => s.key = .object name id).map
            (fun s => (s.frame, s.detection)) =
          ((e.step f).report.sightings.filter fun s => s.key = .object name id).map
            (fun s => (f.context.index, s.detection)) := by
        apply List.map_congr_left
        intro s hs
        rw [frame_of_mem_step (List.mem_of_mem_filter hs)]
      have hdetections : (e.step f).report.sightings.map (·.detection) = f.detections :=
        detections_of_mem_run hmem
      rw [sightingsOf_cons, List.map_append, ih, List.flatMap_cons, hframe, ← hdetections,
        filter_key_eq name id hmem, List.filter_map, List.map_map]
      rfl

end RiskEngine

/-- What an engine stores under a key after some frames: the track of a tracked object, which fits
the detections of the object on these frames since the track was started. -/
structure StoredRight (settings : RiskSettings) (engine : RiskEngine) (frames : List EngineFrame)
    (key : TrackKey) (t : Track) : Prop where
  tracked : ∃ name id, key = .object name id ∧ 0 ≤ id ∧
    (engine.sightingsOf key frames).map (fun s => (s.frame, s.detection)) =
      frames.flatMap fun f =>
        (f.detections.filter fun d => d.Shows name id).map fun d => (f.context.index, d)
  fits : FitsLifetime settings (lifetime (engine.sightingsOf key frames)) t

theorem nonneg_of_mem_sightingsOf {engine : RiskEngine} {name : String} {id : Int}
    {frames : List EngineFrame} {s : Sighting}
    (hs : s ∈ engine.sightingsOf (.object name id) frames) : 0 ≤ id := by
  have hmem := List.mem_map_of_mem (f := fun s : Sighting => (s.frame, s.detection)) hs
  rw [RiskEngine.sightingsOf_detections] at hmem
  obtain ⟨f, -, hmemF⟩ := List.mem_flatMap.mp hmem
  obtain ⟨d, hd, -⟩ := List.mem_map.mp hmemF
  have hshows : d.Shows name id := by simpa using List.of_mem_filter hd
  obtain ⟨htracked, -, rfl⟩ := hshows
  exact htracked

theorem stored_tracks_fit_lifetimes
    {engine : RiskEngine} (hnew : RiskEngine.ofSettings settings = .ok engine)
    (frames : List EngineFrame) (hfound : (engine.after frames).tracks.get? key = some t) :
    StoredRight settings engine frames key t := by
  have hall : (engine.after frames).tracks.AllTracked :=
    RiskEngine.allTracked_after (RiskEngine.allTracked_of_ofSettings hnew) frames
  cases key with
  | mk name identity =>
      cases identity with
      | ephemeral frame position =>
          rw [hall.get?_of_isEphemeral rfl] at hfound
          contradiction
      | tracked id =>
          have hpast := RiskEngine.history_after hnew name id frames
          rw [TrackKey.object, hfound] at hpast
          have hfits := hpast.fitsLifetime
          obtain ⟨earlier, s, hlast, -⟩ := hfits.lastSeen
          have hs : s ∈ engine.sightingsOf (.object name id) frames :=
            mem_of_mem_lifetime (by rw [TrackKey.object, hlast]; simp)
          exact ⟨⟨name, id, rfl, nonneg_of_mem_sightingsOf hs,
            engine.sightingsOf_detections name id frames⟩, hfits⟩

/-- A person right ahead, beside a stranger, and then aside on a frame with a smaller number. -/
theorem stored_tracks_fit_lifetimes_person :
    let person : TrackKey := .object "Person" 1
    let ahead : Detection := ⟨1, 0, "Person", 1, ⟨260, 100, 380, 400⟩⟩
    let aside : Detection := ⟨1, 0, "Person", 1, ⟨20, 100, 60, 160⟩⟩
    let stranger : Detection := ⟨-1, 0, "Person", 1, ⟨260, 100, 380, 400⟩⟩
    let engine : RiskEngine := ⟨.default, .empty, 0⟩
    let frames : List EngineFrame :=
      [⟨⟨⟨640, 480⟩, 4, 30⟩, [ahead, stranger]⟩, ⟨⟨⟨640, 480⟩, 2, 30⟩, [aside]⟩]
    RiskEngine.ofSettings .default = .ok engine ∧
      ∃ t, (engine.after frames).tracks.get? person = some t ∧
        t.gate = ⟨.warn, 9⟩ ∧ t.lastSeen = 2 ∧
        StoredRight .default engine frames person t := by
  intro person ahead aside stranger engine frames
  have hnew : RiskEngine.ofSettings .default = .ok engine := RiskEngine.ofSettings_default
  have hstored : ((engine.after frames).tracks.get? person).map
      (fun t => (t.gate, t.lastSeen)) = some (⟨.warn, 9⟩, 2) := by
    decide +kernel
  obtain ⟨t, hfound, hfacts⟩ := Option.map_eq_some_iff.mp hstored
  obtain ⟨hgate, hseen⟩ := Prod.mk.inj hfacts
  exact ⟨hnew, t, hfound, hgate, hseen, stored_tracks_fit_lifetimes hnew frames hfound⟩

end ObstacleWatch
