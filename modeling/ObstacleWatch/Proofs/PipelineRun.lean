import Mathlib.Data.List.Induction
import ObstacleWatch.Pipeline
import ObstacleWatch.Proofs.AlarmRun
import ObstacleWatch.Proofs.EngineRun

/-!
# Runs of the pipeline

A run hands frames to a pipeline one after the other.  The frames are numbered in the order in which
they come.  Seen from its engine a step of the pipeline is a step of the engine, and seen from its
alarm gate the run is the run of the gate on the assessments.
-/

namespace ObstacleWatch

/-- One frame of a run of the pipeline. -/
structure PipelineStep where
  frame : Frame
  /-- The pipeline after the frame. -/
  pipeline : Pipeline
  outcome : FrameOutcome

namespace Pipeline

/-- A new pipeline for settings that pass their check. -/
def new (settings : RiskSettings) (fpsSource : FpsSource) (capacity : Nat) : Pipeline :=
  ⟨⟨settings, .empty, 0⟩, fpsSource, .initial, .initial, .ofCapacity capacity, .zero, 0, 0⟩

theorem ofSettings_eq_ok_iff
    {settings : RiskSettings} {fpsSource : FpsSource} {capacity : Nat} {p : Pipeline} :
    ofSettings settings fpsSource capacity = .ok p ↔
      settings.check = .ok () ∧ p = new settings fpsSource capacity := by
  unfold ofSettings
  cases hengine : RiskEngine.ofSettings settings with
  | error failure =>
      have hcheck : settings.check ≠ .ok () := by
        intro hcheck
        rw [RiskEngine.ofSettings_eq_ok_iff.mpr ⟨hcheck, rfl⟩] at hengine
        contradiction
      simp [bind, Except.bind, hcheck]
  | ok engine =>
      obtain ⟨hcheck, rfl⟩ := RiskEngine.ofSettings_eq_ok_iff.mp hengine
      simp only [bind, Except.bind, pure, Except.pure, Except.ok.injEq, hcheck, true_and]
      exact eq_comm

theorem ofSettings_default (fpsSource : FpsSource) (capacity : Nat) :
    ofSettings .default fpsSource capacity = .ok (new .default fpsSource capacity) := by
  have hcheck := (RiskEngine.ofSettings_eq_ok_iff.mp RiskEngine.ofSettings_default).1
  exact ofSettings_eq_ok_iff.mpr ⟨hcheck, rfl⟩

def step (p : Pipeline) (f : Frame) : PipelineStep :=
  let (next, outcome) := p.process f
  ⟨f, next, outcome⟩

def run : Pipeline → List Frame → List PipelineStep :=
  runSteps step PipelineStep.pipeline

/-- The pipeline after some frames. -/
def after : Pipeline → List Frame → Pipeline :=
  stateAfter step PipelineStep.pipeline

/-- The assessments of a run. -/
def assessments (p : Pipeline) (frames : List Frame) : List FrameAssessment :=
  (p.run frames).map (·.outcome.assessment)

variable (p : Pipeline) (f : Frame) (frames : List Frame)

theorem after_concat : p.after (frames ++ [f]) = ((p.after frames).step f).pipeline :=
  stateAfter_concat step PipelineStep.pipeline p frames f

theorem run_concat : p.run (frames ++ [f]) = p.run frames ++ [(p.after frames).step f] :=
  runSteps_concat step PipelineStep.pipeline p frames f

@[simp] theorem length_run : (p.run frames).length = frames.length :=
  length_runSteps step PipelineStep.pipeline p frames

@[simp] theorem length_assessments : (p.assessments frames).length = frames.length := by
  rw [assessments, List.length_map, length_run]

/-- The step at a place of a run starts from the pipeline that the earlier frames left. -/
theorem getElem?_run (n : Nat) :
    (p.run frames)[n]? = frames[n]?.map (p.after (frames.take n)).step :=
  getElem?_runSteps step PipelineStep.pipeline p frames n

theorem exists_step_of_getElem?_run
    {p : Pipeline} {frames : List Frame} {n : Nat} {taken : PipelineStep}
    (htaken : (p.run frames)[n]? = some taken) :
    ∃ f, frames[n]? = some f ∧ taken = (p.after (frames.take n)).step f := by
  rw [getElem?_run, Option.map_eq_some_iff] at htaken
  obtain ⟨f, hf, hstep⟩ := htaken
  exact ⟨f, hf, hstep.symm⟩

theorem pipeline_of_getElem?_run
    {p : Pipeline} {frames : List Frame} {n : Nat} {taken : PipelineStep}
    (htaken : (p.run frames)[n]? = some taken) :
    taken.pipeline = p.after (frames.take (n + 1)) := by
  obtain ⟨f, hf, rfl⟩ := exists_step_of_getElem?_run htaken
  rw [List.take_add_one, hf, Option.toList_some, after_concat]

theorem take_run (n : Nat) : (p.run frames).take n = p.run (frames.take n) :=
  take_runSteps step PipelineStep.pipeline p frames n

/-! ## Frame numbers -/

theorem nextFrame_after (past : List Frame) :
    (p.after past).nextFrame = p.nextFrame + past.length := by
  induction past using List.reverseRecOn with
  | nil => rfl
  | append_singleton past f ih =>
      have hnext : ((p.after past).step f).pipeline.nextFrame = (p.after past).nextFrame + 1 := by
        rfl
      rw [after_concat, hnext, ih, List.length_append, List.length_singleton]
      rfl

theorem frame_of_getElem?_assessments
    {settings : RiskSettings} {fpsSource : FpsSource} {capacity : Nat} {frames : List Frame}
    {n : Nat} {a : FrameAssessment}
    (ha : ((new settings fpsSource capacity).assessments frames)[n]? = some a) :
    a.frame = n := by
  rw [assessments, List.getElem?_map, Option.map_eq_some_iff] at ha
  obtain ⟨taken, htaken, rfl⟩ := ha
  obtain ⟨f, hf, rfl⟩ := exists_step_of_getElem?_run htaken
  obtain ⟨hlt, -⟩ := List.getElem?_eq_some_iff.mp hf
  have hframe : (((new settings fpsSource capacity).after (frames.take n)).step
      f).outcome.assessment.frame =
        ((new settings fpsSource capacity).after (frames.take n)).nextFrame := by
    rfl
  have hnew : (new settings fpsSource capacity).nextFrame = 0 := rfl
  rw [hframe, nextFrame_after, hnew, List.length_take, Nat.min_eq_left (Nat.le_of_lt hlt),
    Nat.zero_add]

/-! ## The frame rate of a pipeline -/

theorem step_frameRate : (p.step f).pipeline.frameRate = p.rateAfter f.timestamp := by
  rfl

theorem step_fps : (p.step f).outcome.assessment.fps = p.fpsOf (p.rateAfter f.timestamp) := by
  rfl

/-! ## The engine of a pipeline -/

/-- What the engine is given of a frame. -/
def engineFrame : EngineFrame :=
  ⟨⟨f.size, p.nextFrame, p.fpsOf (p.rateAfter f.timestamp)⟩, f.detections⟩

theorem step_engine : (p.step f).pipeline.engine = (p.engine.step (p.engineFrame f)).engine := by
  rfl

theorem step_report : (p.step f).outcome.report = (p.engine.step (p.engineFrame f)).report := by
  rfl

theorem sightings_detections :
    (p.step f).outcome.report.sightings.map (·.detection) = f.detections := by
  rw [step_report, RiskEngine.step_sightings, sightAll_detections]
  rfl

/-- The objects of a frame are its sightings, each with the metrics reported for it. -/
theorem step_objects :
    (p.step f).outcome.assessment.objects =
      (p.step f).outcome.report.sightings.map fun s => ⟨s.detection, s.metrics⟩ := by
  have hobjects : (p.step f).outcome.assessment.objects =
      List.zipWith AssessedObject.mk f.detections (p.step f).outcome.report.metrics := by
    rfl
  rw [hobjects, ← p.sightings_detections f, EngineReport.metrics, List.zipWith_map,
    List.zipWith_self]

/-! ## The alarm gate of a pipeline -/

/-- A run of the pipeline as its alarm gate sees it. -/
def alarmSteps : List AlarmStep :=
  (p.run frames).map fun taken =>
    ⟨taken.outcome.assessment, taken.pipeline.alarms, taken.outcome.events⟩

theorem alarmSteps_eq_run : p.alarmSteps frames = p.alarms.run (p.assessments frames) := by
  induction frames generalizing p with
  | nil => rfl
  | cons f fs ih =>
      have hsteps : p.alarmSteps (f :: fs) =
          p.alarms.step (p.step f).outcome.assessment ::
            (p.step f).pipeline.alarmSteps fs := by
        rfl
      rw [hsteps, ih]
      rfl

theorem events_eq_run_alarms :
    (p.run frames).map (·.outcome.events) =
      (p.alarms.run (p.assessments frames)).map (·.events) := by
  rw [← alarmSteps_eq_run, alarmSteps, List.map_map]
  rfl

end Pipeline

end ObstacleWatch
