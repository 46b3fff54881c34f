import ObstacleWatch.Proofs.CounterTally
import ObstacleWatch.Proofs.TrackWindow

/-!
# The census of tracks

Every detection either finds the track of its object or starts one, and the sightings say which.  A
detection finds a track if the object has been shown before it on the frame, or on a frame that the
window between frames still holds; any other detection is assessed as a first sighting.  The tracks
started for tracked objects are all accounted for: each is still in the map or has been reaped.
-/

namespace ObstacleWatch

variable {settings : RiskSettings} {ctx : FrameContext} {m : TrackMap}

/-! ## One sighting among those of its frame -/

/-- A detection is assessed against what the detections before it on the frame have left. -/
theorem getElem?_sightAll (settings : RiskSettings) (ctx : FrameContext) (position : Nat)
    (m : TrackMap) (ds : List Detection) (i : Nat) :
    (sightAll settings ctx position m ds).2[i]? = ds[i]?.map fun d =>
      (sight settings ctx (position + i) (sightAll settings ctx position m (ds.take i)).1 d).2 := by
  induction ds generalizing position m i with
  | nil => rfl
  | cons d ds ih =>
      rw [sightAll_cons]
      cases i with
      | zero => rfl
      | succ i =>
          have hplace : position + (i + 1) = position + 1 + i := by omega
          rw [List.getElem?_cons_succ, List.getElem?_cons_succ, List.take_succ_cons, sightAll_cons,
            ih, hplace]

theorem sight_isNew (position : Nat) (m : TrackMap) (d : Detection) :
    (sight settings ctx position m d).2.isNew =
      (m.get? (.ofDetection ctx.index position d)).isNone := rfl

theorem sight_metrics_of_isNew {position : Nat} {d : Detection}
    (hnew : (sight settings ctx position m d).2.isNew = true) :
    (sight settings ctx position m d).2.metrics = firstMetrics settings ctx.size d := by
  rw [sight_isNew, Option.isNone_iff_eq_none] at hnew
  rw [sight_eq, hnew]
  exact assessDetection_fresh_metrics _ _ _

theorem sightAll_metrics_of_isNew {position : Nat} {ds : List Detection} {s : Sighting}
    (hs : s ∈ (sightAll settings ctx position m ds).2) (hnew : s.isNew = true) :
    s.metrics = firstMetrics settings ctx.size s.detection := by
  obtain ⟨i, hi⟩ := List.mem_iff_getElem?.mp hs
  rw [getElem?_sightAll, Option.map_eq_some_iff] at hi
  obtain ⟨d, -, rfl⟩ := hi
  exact sight_metrics_of_isNew hnew

theorem TrackMap.FreeFrom.sightAll {position : Nat} (hfree : m.FreeFrom ctx.index position)
    (settings : RiskSettings) (ds : List Detection) :
    (sightAll settings ctx position m ds).1.FreeFrom ctx.index (position + ds.length) := by
  induction ds generalizing position m with
  | nil => exact hfree
  | cons d ds ih =>
      have hfirst : (ObstacleWatch.sight settings ctx position m d).1.FreeFrom ctx.index
          (position + 1) := hfree.sight d
      rw [sightAll_cons, List.length_cons, Nat.add_comm ds.length, ← Nat.add_assoc]
      exact ih hfirst

theorem get?_sightAll_object (position : Nat) (m : TrackMap) (ds : List Detection)
    (name : String) (id : Int) :
    (sightAll settings ctx position m ds).1.get? (.object name id) =
      (slotSightAll settings ctx (.object name id) (m.get? (.object name id))
        (ds.filter fun d => d.Shows name id)).1 :=
  congrArg Prod.fst (sightAll_project settings ctx name id position m ds)

/-- The other detection shows the tracked object that the detection shows. -/
def Detection.SameObject (d other : Detection) : Prop :=
  other.Shows d.className d.trackId

instance (d other : Detection) : Decidable (d.SameObject other) :=
  inferInstanceAs (Decidable (other.Shows _ _))

theorem Detection.SameObject.isTracked {d other : Detection} (hsame : d.SameObject other) :
    d.IsTracked := by
  obtain ⟨htracked, -, hnumber⟩ := hsame
  rw [IsTracked, hnumber] at htracked
  exact htracked

theorem filter_shows_take_ne_nil_iff {ds : List Detection} {i : Nat} {d : Detection} :
    (ds.take i).filter (fun other => other.Shows d.className d.trackId) ≠ [] ↔
      ∃ j < i, ∃ other ∈ ds[j]?, d.SameObject other := by
  rw [ne_eq, List.filter_eq_nil_iff]
  push Not
  constructor
  · rintro ⟨other, hmem, hshows⟩
    obtain ⟨j, hj⟩ := List.mem_iff_getElem?.mp hmem
    rw [List.getElem?_take, Option.ite_none_right_eq_some] at hj
    exact ⟨j, hj.1, other, hj.2, of_decide_eq_true hshows⟩
  · rintro ⟨j, hlt, other, hother, hsame⟩
    refine ⟨other, List.mem_iff_getElem?.mpr ⟨j, ?_⟩, decide_eq_true hsame⟩
    rw [List.getElem?_take_of_lt hlt]
    exact hother

/-- A detection finds the track of its object if there was one before the frame, or if an earlier
detection of the frame has left one. -/
theorem sightAll_found_iff (hm : m.AllTracked) {ds : List Detection} {i : Nat} {s : Sighting}
    (hs : (sightAll settings ctx 0 m ds).2[i]? = some s) :
    s.isNew = false ↔
      (∃ j < i, ∃ d ∈ ds[j]?, s.detection.SameObject d) ∨
        s.detection.IsTracked ∧
          (m.get? (.object s.detection.className s.detection.trackId)).isSome := by
  rw [getElem?_sightAll, Option.map_eq_some_iff] at hs
  obtain ⟨d, hd, rfl⟩ := hs
  have hdetection (m : TrackMap) : (sight settings ctx (0 + i) m d).2.detection = d := rfl
  rw [sight_isNew, hdetection, Option.isNone_eq_false_iff]
  by_cases htracked : d.IsTracked
  · have hkey : TrackKey.ofDetection ctx.index (0 + i) d = .object d.className d.trackId :=
      TrackKey.ofDetection_eq_object_iff.mpr ⟨htracked, rfl, rfl⟩
    rw [hkey, get?_sightAll_object, isSome_slotSightAll_iff, filter_shows_take_ne_nil_iff,
      and_iff_right htracked]
  · -- The key of an unrecognised object is made for its position, so nothing is there yet.
    have hkey : TrackKey.ofDetection ctx.index (0 + i) d =
        ⟨d.className, .ephemeral ctx.index (0 + i)⟩ := by
      simp [TrackKey.ofDetection, htracked]
    have hlength : (ds.take i).length = i := by
      obtain ⟨hlt, -⟩ := List.getElem?_eq_some_iff.mp hd
      rw [List.length_take, Nat.min_eq_left (Nat.le_of_lt hlt)]
    have hfree := (hm.freeFrom ctx.index 0).sightAll settings (ds.take i)
    rw [hlength] at hfree
    rw [hkey, hfree d.className (0 + i) (Nat.le_refl _)]
    refine iff_of_false (by simp) ?_
    rintro (⟨_, _, _, _, hsame⟩ | ⟨hd, -⟩)
    · exact htracked hsame.isTracked
    · exact htracked hd

/-! ## Sizes of maps -/

theorem length_filter_ne_of_nodup
    {entries : List (TrackKey × Track)} (hnodup : (entries.map Prod.fst).Nodup)
    (key : TrackKey) :
    (entries.filter fun e => decide (e.1 ≠ key)).length +
        (if (entries.lookup key).isSome then 1 else 0) = entries.length := by
  induction entries with
  | nil => rfl
  | cons entry rest ih =>
      obtain ⟨k, t⟩ := entry
      rw [List.map_cons, List.nodup_cons] at hnodup
      by_cases hkey : key = k
      · subst hkey
        have hrest : rest.filter (fun e => decide (e.1 ≠ key)) = rest := by
          rw [List.filter_eq_self]
          intro e he
          have hne : e.1 ≠ key := fun heq => hnodup.1 (List.mem_map.mpr ⟨e, he, heq⟩)
          exact decide_eq_true hne
        rw [List.filter_cons_of_neg (by simp), hrest]
        simp
      · have hbeq : (key == k) = false := by simpa using hkey
        have hne : k ≠ key := Ne.symm hkey
        rw [List.filter_cons_of_pos (by simpa using hne), List.lookup_cons, hbeq,
          List.length_cons, List.length_cons, ← ih hnodup.2]
        simp only []
        omega

namespace TrackMap

theorem size_insert (m : TrackMap) (key : TrackKey) (t : Track) :
    (m.insert key t).size = m.size + if (m.get? key).isNone then 1 else 0 := by
  have herase : (m.erase key).size + (if (m.get? key).isSome then 1 else 0) = m.size :=
    length_filter_ne_of_nodup m.nodup key
  have hinsert : (m.insert key t).size = (m.erase key).size + 1 := rfl
  rw [hinsert, ← herase]
  cases m.get? key <;> simp

theorem size_reap_add_staleCount (m : TrackMap) (frame staleFrames : Nat) :
    (m.reap frame staleFrames).size + m.staleCount frame staleFrames = m.size := by
  have hle : (m.reap frame staleFrames).size ≤ m.size := List.length_filter_le _ _
  rw [staleCount]
  omega

end TrackMap

theorem size_sightAll (settings : RiskSettings) (ctx : FrameContext) (position : Nat)
    (m : TrackMap) (ds : List Detection) :
    (sightAll settings ctx position m ds).1.size =
      m.size + (sightAll settings ctx position m ds).2.countP (·.isNew) := by
  induction ds generalizing position m with
  | nil => rfl
  | cons d ds ih =>
      have hfirst : (sight settings ctx position m d).1.size =
          m.size + if (sight settings ctx position m d).2.isNew then 1 else 0 := by
        rw [sight_eq]
        exact m.size_insert _ _
      rw [sightAll_cons, ih, hfirst, List.countP_cons]
      omega

/-! ## Tracks started, kept and reaped -/

/-- How many tracks of tracked objects a frame has started. -/
def EngineReport.started (r : EngineReport) : Nat :=
  r.sightings.countP fun s => s.isNew ∧ s.detection.IsTracked

/-- A frame adds the tracks it starts, and reaping moves tracks from one side of the account to the
other. -/
theorem RiskEngine.step_census {e : RiskEngine} (he : e.tracks.AllTracked) (f : EngineFrame) :
    (e.step f).engine.tracks.size + (e.step f).engine.reapedTotal =
      e.tracks.size + e.reapedTotal + (e.step f).report.started := by
  -- Without the unrecognised objects the frame leaves the same tracks and counts the same starts.
  have hleft : (sightAll e.settings f.context 0 e.tracks f.detections).1.tracked.size =
      e.tracks.size + (e.step f).report.started := by
    have hsize := size_sightAll e.settings f.context 0 e.tracks
      (f.restrict Detection.IsTracked).detections
    rw [sightAll_restrict he, List.countP_filter] at hsize
    rw [hsize, EngineReport.started]
    simp
  have hreap := (sightAll e.settings f.context 0 e.tracks
    f.detections).1.tracked.size_reap_add_staleCount f.context.index e.settings.staleFrames
  rw [step_engine he]
  dsimp only
  omega

/-- How many tracks of tracked objects the frames of a run have started. -/
def startedTracks (steps : List PipelineStep) : Nat :=
  (steps.flatMap (·.outcome.report.sightings)).countP fun s => s.isNew ∧ s.detection.IsTracked

theorem startedTracks_concat (steps : List PipelineStep) (taken : PipelineStep) :
    startedTracks (steps ++ [taken]) = startedTracks steps + taken.outcome.report.started := by
  rw [startedTracks, List.flatMap_append, List.countP_append, List.flatMap_singleton]
  rfl

namespace Pipeline

variable (settings : RiskSettings) (fpsSource : FpsSource) (capacity : Nat)

theorem census_after (past : List Frame) :
    startedTracks ((new settings fpsSource capacity).run past) =
      ((new settings fpsSource capacity).after past).engine.tracks.size +
        ((new settings fpsSource capacity).after past).engine.reapedTotal := by
  induction past using List.reverseRecOn with
  | nil => rfl
  | append_singleton past f ih =>
      have hstep := RiskEngine.step_census (allTracked_after settings fpsSource capacity past)
        (((new settings fpsSource capacity).after past).engineFrame f)
      rw [run_concat, startedTracks_concat, after_concat, step_engine, step_report, ih, hstep]

end Pipeline

/-! ## Runs of the pipeline -/

/-- What the sightings of the frame at a place of a sequence tell: one for each detection, which
detections have found a track, and that the others are first sightings. -/
structure SightingsTell (settings : RiskSettings) (frames : List Frame) (n : Nat) (f : Frame)
    (outcome : FrameOutcome) : Prop where
  detections : outcome.report.sightings.map (·.detection) = f.detections
  objects : outcome.assessment.objects =
    outcome.report.sightings.map fun s => AssessedObject.mk s.detection s.metrics
  found : ∀ (i : Nat) (s : Sighting), outcome.report.sightings[i]? = some s →
    (s.isNew = false ↔
      (∃ j < i, ∃ d ∈ f.detections[j]?, s.detection.SameObject d) ∨
        ∃ m < n, n ≤ m + settings.staleFrames + 1 ∧
          ShownAt frames s.detection.className s.detection.trackId m)
  first : ∀ s ∈ outcome.report.sightings, s.isNew = true →
    s.metrics = firstMetrics settings f.size s.detection ∧
      s.metrics.distance = (BoxGeometry.measure settings f.size s.detection).distance ∧
      s.metrics.closingRate = 0

/-- Every track that some steps have started is in the map or has been reaped, and the counters say
how many of either. -/
structure TracksAccounted (steps : List PipelineStep) (p : Pipeline) : Prop where
  conserved : startedTracks steps = p.engine.tracks.size + p.engine.reapedTotal
  activeTracks : p.counters.activeTracks = p.engine.tracks.size.toUInt64
  tracksReaped : p.counters.tracksReaped = p.engine.reapedTotal.toUInt64

namespace Pipeline

variable (settings : RiskSettings) (fpsSource : FpsSource) (capacity : Nat)

theorem sightingsTell_step {frames : List Frame} {n : Nat} (hn : n ≤ frames.length) (f : Frame) :
    SightingsTell settings frames n f
      (((new settings fpsSource capacity).after (frames.take n)).step f).outcome := by
  let before := (new settings fpsSource capacity).after (frames.take n)
  have htracked : before.engine.tracks.AllTracked := allTracked_after _ _ _ _
  have hsettings : before.engine.settings = settings := settings_after _ _
  refine ⟨before.sightings_detections f, before.step_objects f, ?_, ?_⟩
  · intro i s hs
    have hwindow := slotWindow_after settings fpsSource capacity (frames.take n)
      s.detection.className s.detection.trackId
    rw [sightAll_found_iff htracked hs, hwindow.held_take_iff hn]
    refine or_congr_right ⟨fun h => h.2, fun h => ⟨?_, h⟩⟩
    obtain ⟨m, -, -, hshown⟩ := h
    exact hshown.nonneg
  · intro s hs hnew
    have hmetrics := sightAll_metrics_of_isNew hs hnew
    rw [hsettings] at hmetrics
    refine ⟨hmetrics, ?_, ?_⟩
    · rw [hmetrics]
      exact firstMetrics_distance _ _
    · rw [hmetrics]
      exact firstMetrics_closingRate _ _

theorem tracksAccounted_step (past : List Frame) (f : Frame) :
    TracksAccounted ((new settings fpsSource capacity).run (past ++ [f]))
      ((new settings fpsSource capacity).after (past ++ [f])) where
  conserved := census_after ..
  activeTracks := activeTracks_after ..
  tracksReaped := tracksReaped_after ..

end Pipeline

/-- The tracks after the frame at a place of a run, how the detections of the frame have found them,
and the account of all tracks started so far. -/
structure TrackCensus (settings : RiskSettings) (p : Pipeline) (frames : List Frame) (n : Nat)
    (taken : PipelineStep) : Prop where
  frame : frames[n]? = some taken.frame
  tracks : TracksHeld settings.staleFrames frames n taken.pipeline.engine.tracks
  sightings : SightingsTell settings frames n taken.frame taken.outcome
  account : TracksAccounted ((p.run frames).take (n + 1)) taken.pipeline

theorem track_census
    {settings : RiskSettings} {fpsSource : FpsSource} {capacity : Nat} {p : Pipeline}
    (hnew : Pipeline.ofSettings settings fpsSource capacity = .ok p) (frames : List Frame)
    {n : Nat} {taken : PipelineStep} (htaken : (p.run frames)[n]? = some taken) :
    TrackCensus settings p frames n taken := by
  obtain ⟨-, rfl⟩ := Pipeline.ofSettings_eq_ok_iff.mp hnew
  have hpipeline := Pipeline.pipeline_of_getElem?_run htaken
  obtain ⟨f, hf, rfl⟩ := Pipeline.exists_step_of_getElem?_run htaken
  obtain ⟨hlt, -⟩ := List.getElem?_eq_some_iff.mp hf
  refine ⟨hf, ?_, ?_, ?_⟩
  · rw [hpipeline]
    exact Pipeline.tracksHeld_after settings fpsSource capacity hlt
  · exact Pipeline.sightingsTell_step settings fpsSource capacity (Nat.le_of_lt hlt) f
  · have htake : frames.take (n + 1) = frames.take n ++ [f] := by
      rw [List.take_add_one, hf, Option.toList_some]
    rw [hpipeline, Pipeline.take_run, htake]
    exact Pipeline.tracksAccounted_step settings fpsSource capacity _ f

def briefMemory : RiskSettings :=
  { RiskSettings.default with staleFrames := 0 }

/-- A person is forgotten on a frame without them; on the next frame the first of two detections
starts a new track for the second one, and the stranger between them is on their own. -/
theorem track_census_return :
    let p := Pipeline.new briefMemory (.constant 30) 16
    let person : Detection := ⟨1, 0, "Person", 1, ⟨260, 100, 380, 400⟩⟩
    let stranger : Detection := ⟨-1, 0, "Person", 1, ⟨260, 100, 380, 400⟩⟩
    let frames : List Frame :=
      [⟨⟨640, 480⟩, none, [person]⟩, ⟨⟨640, 480⟩, none, []⟩,
        ⟨⟨640, 480⟩, none, [person, stranger, person]⟩]
    Pipeline.ofSettings briefMemory (.constant 30) 16 = .ok p ∧
      ∃ taken, (p.run frames)[2]? = some taken ∧ TrackCensus briefMemory p frames 2 taken ∧
        taken.outcome.report.sightings.map (·.isNew) = [true, true, false] ∧
        taken.pipeline.engine.tracks.size = 1 ∧ taken.pipeline.engine.reapedTotal = 1 := by
  intro p person stranger frames
  have hdefault := (RiskEngine.ofSettings_eq_ok_iff.mp RiskEngine.ofSettings_default).1
  have hnew : Pipeline.ofSettings briefMemory (.constant 30) 16 = .ok p :=
    Pipeline.ofSettings_eq_ok_iff.mpr ⟨hdefault, rfl⟩
  refine ⟨hnew, _, rfl, track_census hnew frames rfl, ?_⟩
  decide +kernel

end ObstacleWatch
