import ObstacleWatch.Engine
import ObstacleWatch.Proofs.TrackMapView

/-!
# Runs of the risk engine

A run hands frames to the engine one after the other and keeps, for every frame, what was given,
the engine after it and the report.  The sightings of a report stand for the detections of its
frame, in the same order, so the metrics of a frame can be read by detection.
-/

namespace ObstacleWatch

structure EngineFrame where
  context : FrameContext
  detections : List Detection

/-- One frame of a run. -/
structure EngineStep where
  frame : EngineFrame
  /-- The engine after the frame. -/
  engine : RiskEngine
  report : EngineReport

namespace EngineFrame

/-- The frame with only the detections that satisfy a condition. -/
def restrict (f : EngineFrame) (keep : Detection → Prop) [DecidablePred keep] : EngineFrame :=
  ⟨f.context, f.detections.filter fun d => keep d⟩

@[simp] theorem restrict_context (f : EngineFrame) (keep : Detection → Prop)
    [DecidablePred keep] : (f.restrict keep).context = f.context := rfl

end EngineFrame

namespace EngineStep

/-- The metrics reported for the detections that satisfy a condition.  Metrics stand at the
position of their detection. -/
def metricsOf (step : EngineStep) (keep : Detection → Prop) [DecidablePred keep] :
    List RiskMetrics :=
  ((step.frame.detections.zip step.report.metrics).filter fun pair =>
    keep pair.1).map Prod.snd

end EngineStep

namespace RiskEngine

def step (e : RiskEngine) (f : EngineFrame) : EngineStep :=
  let (next, report) := e.update f.context f.detections
  ⟨f, next, report⟩

def run : RiskEngine → List EngineFrame → List EngineStep
  | _, [] => []
  | e, f :: fs => e.step f :: (e.step f).engine.run fs

/-- Settings that pass their check give the engine without tracks, and no others give one. -/
theorem ofSettings_eq_ok_iff {settings : RiskSettings} {e : RiskEngine} :
    ofSettings settings = .ok e ↔ settings.check = .ok () ∧ e = ⟨settings, .empty, 0⟩ := by
  unfold ofSettings
  cases hcheck : settings.check with
  | error failure => simp [bind, Except.bind]
  | ok =>
      simp only [bind, Except.bind, pure, Except.pure, Except.ok.injEq, true_and]
      exact eq_comm

theorem ofSettings_default : ofSettings .default = .ok ⟨.default, .empty, 0⟩ := by
  have hok : RiskSettings.default.check.isOk = true := by decide +kernel
  refine ofSettings_eq_ok_iff.mpr ⟨?_, rfl⟩
  cases hcheck : RiskSettings.default.check with
  | ok => rfl
  | error failure =>
      rw [hcheck] at hok
      contradiction

end RiskEngine

/-! ## The sightings of one frame -/

variable (settings : RiskSettings) (ctx : FrameContext)

@[simp] theorem sightAll_nil (position : Nat) (m : TrackMap) :
    sightAll settings ctx position m [] = (m, []) := rfl

theorem sightAll_cons (position : Nat) (m : TrackMap) (d : Detection)
    (ds : List Detection) :
    sightAll settings ctx position m (d :: ds) =
      ((sightAll settings ctx (position + 1) (sight settings ctx position m d).1 ds).1,
        (sight settings ctx position m d).2 ::
          (sightAll settings ctx (position + 1) (sight settings ctx position m d).1 ds).2) := by
  rfl

/-- One detection under a key, assessed against what the map holds there. -/
def slotSight (settings : RiskSettings) (ctx : FrameContext) (key : TrackKey)
    (slot : Option Track) (d : Detection) : Track × Sighting :=
  assessDetection settings ctx key slot.isNone (Track.found ctx.index slot) d

theorem sight_eq (position : Nat) (m : TrackMap) (d : Detection) :
    sight settings ctx position m d =
      (m.insert (.ofDetection ctx.index position d)
          (slotSight settings ctx (.ofDetection ctx.index position d)
            (m.get? (.ofDetection ctx.index position d)) d).1,
        (slotSight settings ctx (.ofDetection ctx.index position d)
          (m.get? (.ofDetection ctx.index position d)) d).2) := by
  simp only [sight, TrackMap.seen_eq_found]
  rfl

theorem sightAll_detections (position : Nat) (m : TrackMap) (ds : List Detection) :
    (sightAll settings ctx position m ds).2.map (·.detection) = ds := by
  induction ds generalizing position m with
  | nil => rfl
  | cons d ds ih =>
      rw [sightAll_cons, List.map_cons, ih]
      rfl

theorem frame_of_mem_sightAll {position : Nat} {m : TrackMap} {ds : List Detection}
    {s : Sighting} (hmem : s ∈ (sightAll settings ctx position m ds).2) :
    s.frame = ctx.index := by
  induction ds generalizing position m with
  | nil => simp at hmem
  | cons d ds ih =>
      rw [sightAll_cons] at hmem
      rcases List.mem_cons.mp hmem with rfl | hrest
      · rfl
      · exact ih hrest

theorem key_of_mem_sightAll {position : Nat} {m : TrackMap} {ds : List Detection}
    {s : Sighting} (hmem : s ∈ (sightAll settings ctx position m ds).2) :
    ∃ place, s.key = TrackKey.ofDetection ctx.index place s.detection := by
  induction ds generalizing position m with
  | nil => simp at hmem
  | cons d ds ih =>
      rw [sightAll_cons] at hmem
      rcases List.mem_cons.mp hmem with rfl | hrest
      · exact ⟨position, rfl⟩
      · exact ih hrest

/-! ## Along a run -/

namespace RiskEngine

@[simp] theorem step_frame (e : RiskEngine) (f : EngineFrame) : (e.step f).frame = f := rfl

theorem step_settings (e : RiskEngine) (f : EngineFrame) :
    (e.step f).engine.settings = e.settings := rfl

theorem step_sightings (e : RiskEngine) (f : EngineFrame) :
    (e.step f).report.sightings = (sightAll e.settings f.context 0 e.tracks f.detections).2 := by
  rfl

theorem frame_of_mem_step
    {e : RiskEngine} {f : EngineFrame} {s : Sighting} (hmem : s ∈ (e.step f).report.sightings) :
    s.frame = f.context.index := by
  rw [step_sightings] at hmem
  exact frame_of_mem_sightAll _ _ hmem

@[simp] theorem run_nil (e : RiskEngine) : e.run [] = [] := rfl

theorem run_cons (e : RiskEngine) (f : EngineFrame) (fs : List EngineFrame) :
    e.run (f :: fs) = e.step f :: (e.step f).engine.run fs := rfl

/-- Every frame of a run starts from an engine that has whatever the engine had at first and none of
the frames takes away. -/
theorem exists_step_of_mem_run_frames
    {P : RiskEngine → Prop} {frames : List EngineFrame}
    (hstep : ∀ e, ∀ f ∈ frames, P e → P (e.step f).engine) {e : RiskEngine} (he : P e)
    {taken : EngineStep} (hmem : taken ∈ e.run frames) :
    ∃ before, P before ∧ taken = before.step taken.frame := by
  induction frames generalizing e with
  | nil => simp at hmem
  | cons f fs ih =>
      rw [run_cons] at hmem
      rcases List.mem_cons.mp hmem with rfl | hrest
      · exact ⟨e, he, rfl⟩
      · exact ih (fun e f hf => hstep e f (List.mem_cons_of_mem _ hf))
          (hstep e f List.mem_cons_self he) hrest

theorem exists_step_of_mem_run
    {P : RiskEngine → Prop} (hstep : ∀ e f, P e → P (e.step f).engine)
    {e : RiskEngine} (he : P e) {frames : List EngineFrame} {taken : EngineStep}
    (hmem : taken ∈ e.run frames) :
    ∃ before, P before ∧ taken = before.step taken.frame :=
  exists_step_of_mem_run_frames (fun e f _ => hstep e f) he hmem

theorem detections_of_mem_run
    {e : RiskEngine} {frames : List EngineFrame} {taken : EngineStep}
    (hmem : taken ∈ e.run frames) :
    taken.report.sightings.map (·.detection) = taken.frame.detections := by
  obtain ⟨before, -, htaken⟩ :=
    exists_step_of_mem_run (P := fun _ => True) (fun _ _ _ => trivial) trivial hmem
  rw [htaken, step_sightings, sightAll_detections, step_frame]

/-- The detections of a frame with their metrics are read off the sightings. -/
theorem reported_of_mem_run
    {e : RiskEngine} {frames : List EngineFrame} {taken : EngineStep}
    (hmem : taken ∈ e.run frames) :
    taken.frame.detections.zip taken.report.metrics =
      taken.report.sightings.map fun s => (s.detection, s.metrics) := by
  rw [← detections_of_mem_run hmem, EngineReport.metrics, List.zip_map']

theorem metricsOf_of_mem_run
    {e : RiskEngine} {frames : List EngineFrame} {taken : EngineStep}
    (hmem : taken ∈ e.run frames) (keep : Detection → Prop) [DecidablePred keep] :
    taken.metricsOf keep =
      (taken.report.sightings.filter fun s => keep s.detection).map (·.metrics) := by
  unfold EngineStep.metricsOf
  rw [reported_of_mem_run hmem, List.filter_map, List.map_map]
  rfl

end RiskEngine

end ObstacleWatch
