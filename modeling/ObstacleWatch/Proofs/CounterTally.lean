import Mathlib.Algebra.Order.BigOperators.Group.List
import Mathlib.Algebra.Order.Ring.Nat
import ObstacleWatch.Proofs.PipelineRun

/-!
# The tally of a pipeline

The counters are brought up to date at two places of a step: events are counted as they are raised,
before the queue sees them, and everything else when the frame is done.  Both are additions, so a
counter stands at the tally of the steps so far, which can be read off what the steps returned; it
starts again from zero at 2^64.  The active tracks are no tally: their number is set.
-/

namespace ObstacleWatch

/-! ## One counter at a time -/

namespace Counters

def value (c : Counters) : Name → UInt64
  | .totalFrames => c.totalFrames
  | .framesWithDetections => c.framesWithDetections
  | .detections => c.detections
  | .cautionFrames => c.cautionFrames
  | .warnFrames => c.warnFrames
  | .levelChanges => c.levelChanges
  | .warnOnsets => c.warnOnsets
  | .tracksReaped => c.tracksReaped
  | .activeTracks => c.activeTracks

theorem value_modify (c : Counters) (name other : Name) (f : UInt64 → UInt64) :
    (c.modify name f).value other = if other = name then f (c.value other) else c.value other := by
  cases name <;> cases other <;> rfl

theorem value_add (c : Counters) (name other : Name) (n : UInt64) :
    (c.add name n).value other = c.value other + if other = name then n else 0 := by
  rw [add, value_modify]
  split
  · rfl
  · exact (UInt64.add_zero _).symm

theorem value_set_of_ne (c : Counters) {name other : Name} (hne : other ≠ name) (n : UInt64) :
    (c.set name n).value other = c.value other := by
  rw [set, value_modify, if_neg hne]

theorem value_countEvents (c : Counters) (events : List AlarmEvent) (name : Name) :
    (c.countEvents events).value name =
      c.value name + (events.countP fun event => event.counter = name).toUInt64 := by
  induction events generalizing c with
  | nil => exact (UInt64.add_zero _).symm
  | cons event events ih =>
      rw [countEvents, List.foldl_cons, ← countEvents, ih, value_add, List.countP_cons,
        Nat.toUInt64, UInt64.ofNat_add, UInt64.add_assoc]
      congr 1
      by_cases hname : event.counter = name
      · simp [hname, UInt64.add_comm]
      · simp [hname, Ne.symm hname]

/-- How much a frame adds to a counter, apart from its events. -/
def frameShare (level : DangerLevel) (detections reaped : Nat) : Name → Nat
  | .totalFrames => 1
  | .framesWithDetections => if 0 < detections then 1 else 0
  | .detections => detections
  | .cautionFrames => if level = .caution then 1 else 0
  | .warnFrames => if level = .warn then 1 else 0
  | .tracksReaped => reaped
  | .levelChanges | .warnOnsets | .activeTracks => 0

theorem value_countLevel (c : Counters) (level : DangerLevel) (name : Name) :
    (c.countLevel level).value name =
      c.value name +
        if name = .cautionFrames ∧ level = .caution ∨ name = .warnFrames ∧ level = .warn then 1
        else 0 := by
  cases level with
  | safe => simp [countLevel]
  | caution => simp [countLevel, value_add]
  | warn => simp [countLevel, value_add]

theorem value_countDetections (c : Counters) (n : Nat) (name : Name) :
    (c.countDetections n).value name =
      c.value name + (if name = .framesWithDetections ∧ 0 < n then 1 else 0) +
        if name = .detections then n.toUInt64 else 0 := by
  rw [countDetections]
  split
  · next hsome => simp [value_add, hsome]
  · next hnone =>
      obtain rfl : n = 0 := Nat.eq_zero_of_not_pos hnone
      simp

theorem value_countFrame (c : Counters) (level : DangerLevel) (detections reaped active : Nat)
    {name : Name} (hname : name ≠ .activeTracks) :
    (c.countFrame level detections reaped active).value name =
      c.value name + (frameShare level detections reaped name).toUInt64 := by
  rw [countFrame, value_set_of_ne _ hname, value_add, value_countLevel, value_countDetections,
    value_add]
  cases name <;> simp [frameShare, apply_ite Nat.toUInt64] at hname ⊢

end Counters

/-! ## The tally of some steps -/

namespace PipelineStep

def share (taken : PipelineStep) (name : Counters.Name) : Nat :=
  (taken.outcome.events.countP fun event => event.counter = name) +
    Counters.frameShare taken.outcome.assessment.level taken.frame.detections.length
      taken.outcome.report.reaped name

end PipelineStep

theorem length_levelChanges (events : List AlarmEvent) :
    (levelChanges events).length = events.countP fun event => event.counter = .levelChanges := by
  rw [levelChanges, List.length_filterMap_eq_countP]
  apply List.countP_congr
  intro event _
  cases event <;> simp [AlarmEvent.change?, AlarmEvent.counter]

theorem length_warnOnsets (events : List AlarmEvent) :
    (warnOnsets events).length = events.countP fun event => event.counter = .warnOnsets := by
  rw [warnOnsets, List.length_filterMap_eq_countP]
  apply List.countP_congr
  intro event _
  cases event <;> simp [AlarmEvent.onset?, AlarmEvent.counter]

/-- What a counter should say after some steps, from what the steps were given and returned. -/
def tally (steps : List PipelineStep) : Counters.Name → Nat
  | .totalFrames => steps.length
  | .framesWithDetections => steps.countP fun taken => 0 < taken.frame.detections.length
  | .detections => (steps.map (·.frame.detections.length)).sum
  | .cautionFrames => steps.countP fun taken => taken.outcome.assessment.level = .caution
  | .warnFrames => steps.countP fun taken => taken.outcome.assessment.level = .warn
  | .levelChanges => (levelChanges (steps.flatMap (·.outcome.events))).length
  | .warnOnsets => (warnOnsets (steps.flatMap (·.outcome.events))).length
  | .tracksReaped => (steps.map (·.outcome.report.reaped)).sum
  | .activeTracks => 0

theorem tally_nil (name : Counters.Name) : tally [] name = 0 := by
  cases name <;> rfl

theorem tally_concat (steps : List PipelineStep) (taken : PipelineStep) {name : Counters.Name}
    (hname : name ≠ .activeTracks) :
    tally (steps ++ [taken]) name = tally steps name + taken.share name := by
  -- An event counts for level changes or for warnings, so all other shares are those of the frame.
  have hnone {other : Counters.Name} (hchange : other ≠ .levelChanges)
      (honset : other ≠ .warnOnsets) :
      (taken.outcome.events.countP fun event => event.counter = other) = 0 := by
    rw [List.countP_eq_zero]
    intro event _
    cases event <;> simp [AlarmEvent.counter, hchange.symm, honset.symm]
  cases name <;>
    simp [tally, PipelineStep.share, Counters.frameShare, levelChanges_append, warnOnsets_append,
      length_levelChanges, length_warnOnsets, List.countP_singleton, hnone] at hname ⊢

/-! ## Along a run -/

namespace Pipeline

theorem step_counters (p : Pipeline) (f : Frame) :
    (p.step f).pipeline.counters =
      (p.counters.countEvents (p.step f).outcome.events).countFrame
        (p.step f).outcome.assessment.level f.detections.length
        ((p.step f).pipeline.engine.reapedTotal - p.lastReaped)
        (p.step f).pipeline.engine.tracks.size := rfl

theorem reapedTotal_step (p : Pipeline) (f : Frame) :
    (p.step f).pipeline.engine.reapedTotal =
      p.engine.reapedTotal + (p.step f).outcome.report.reaped := rfl

theorem activeTracks_step (p : Pipeline) (f : Frame) :
    (p.step f).pipeline.counters.activeTracks =
      (p.step f).pipeline.engine.tracks.size.toUInt64 := rfl

theorem value_step (p : Pipeline) (f : Frame) {name : Counters.Name}
    (hname : name ≠ .activeTracks) :
    (p.step f).pipeline.counters.value name =
      p.counters.value name +
        (((p.step f).outcome.events.countP fun event => event.counter = name) +
          Counters.frameShare (p.step f).outcome.assessment.level f.detections.length
            ((p.step f).pipeline.engine.reapedTotal - p.lastReaped) name).toUInt64 := by
  rw [step_counters, Counters.value_countFrame _ _ _ _ _ hname, Counters.value_countEvents,
    UInt64.add_assoc]
  exact congrArg (p.counters.value name + ·) (UInt64.ofNat_add _ _).symm

/-- If nothing was reaped since the counters were last brought up to date, the frame adds its share
to each of them. -/
theorem value_step_share {p : Pipeline} (hreaped : p.lastReaped = p.engine.reapedTotal) (f : Frame)
    {name : Counters.Name} (hname : name ≠ .activeTracks) :
    (p.step f).pipeline.counters.value name =
      p.counters.value name + ((p.step f).share name).toUInt64 := by
  have hsince : (p.step f).pipeline.engine.reapedTotal - p.lastReaped =
      (p.step f).outcome.report.reaped := by
    rw [reapedTotal_step, hreaped, Nat.add_sub_cancel_left]
  have hframe : (p.step f).frame = f := rfl
  rw [p.value_step f hname, hsince, PipelineStep.share, hframe]

variable (settings : RiskSettings) (fpsSource : FpsSource) (capacity : Nat) (past : List Frame)

theorem lastReaped_after :
    ((new settings fpsSource capacity).after past).lastReaped =
      ((new settings fpsSource capacity).after past).engine.reapedTotal := by
  rcases List.eq_nil_or_concat' past with rfl | ⟨earlier, f, rfl⟩
  · rfl
  · rw [after_concat]
    rfl

/-- Every counter but the number of active tracks stands at its tally. -/
theorem value_after {name : Counters.Name} (hname : name ≠ .activeTracks) :
    ((new settings fpsSource capacity).after past).counters.value name =
      (tally ((new settings fpsSource capacity).run past) name).toUInt64 := by
  induction past using List.reverseRecOn with
  | nil =>
      rw [run, runSteps_nil, tally_nil]
      cases name <;> rfl
  | append_singleton past f ih =>
      have hreaped := lastReaped_after settings fpsSource capacity past
      rw [after_concat, value_step_share hreaped f hname, ih, run_concat, tally_concat _ _ hname]
      exact (UInt64.ofNat_add _ _).symm

theorem reapedTotal_after :
    ((new settings fpsSource capacity).after past).engine.reapedTotal =
      tally ((new settings fpsSource capacity).run past) .tracksReaped := by
  induction past using List.reverseRecOn with
  | nil => rfl
  | append_singleton past f ih =>
      rw [after_concat, reapedTotal_step, ih, run_concat]
      simp [tally]

theorem activeTracks_after :
    ((new settings fpsSource capacity).after past).counters.activeTracks =
      ((new settings fpsSource capacity).after past).engine.tracks.size.toUInt64 := by
  rcases List.eq_nil_or_concat' past with rfl | ⟨earlier, f, rfl⟩
  · rfl
  · rw [after_concat]
    exact activeTracks_step _ f

theorem tracksReaped_after :
    ((new settings fpsSource capacity).after past).counters.tracksReaped =
      ((new settings fpsSource capacity).after past).engine.reapedTotal.toUInt64 := by
  have hname : Counters.Name.tracksReaped ≠ .activeTracks := by decide
  rw [reapedTotal_after]
  exact value_after settings fpsSource capacity past hname

theorem frames_run (p : Pipeline) (frames : List Frame) :
    (p.run frames).map (·.frame) = frames := by
  induction frames using List.reverseRecOn with
  | nil => rfl
  | append_singleton past f ih =>
      rw [run_concat, List.map_append, ih]
      rfl

theorem tally_run_framesWithDetections (p : Pipeline) (frames : List Frame) :
    tally (p.run frames) .framesWithDetections = frames.countP fun f => f.detections ≠ [] := by
  conv_rhs => rw [← p.frames_run frames, List.countP_map]
  rw [tally]
  exact List.countP_congr fun taken _ => by simp [List.length_pos_iff]

theorem tally_run_detections (p : Pipeline) (frames : List Frame) :
    tally (p.run frames) .detections = (frames.map (·.detections.length)).sum := by
  conv_rhs => rw [← p.frames_run frames, List.map_map]
  rfl

theorem numbers_run :
    ((new settings fpsSource capacity).run past).map (·.outcome.assessment.frame) =
      List.range past.length := by
  induction past using List.reverseRecOn with
  | nil => rfl
  | append_singleton past f ih =>
      have hnumber : (((new settings fpsSource capacity).after past).step
          f).outcome.assessment.frame =
            ((new settings fpsSource capacity).after past).nextFrame := rfl
      have hnext : ((new settings fpsSource capacity).after past).nextFrame = past.length := by
        rw [nextFrame_after]
        exact Nat.zero_add _
      rw [run_concat, List.map_append, ih, List.length_append, List.length_singleton,
        List.range_succ, List.map_singleton, hnumber, hnext]

end Pipeline

/-! ## The counters and what was returned -/

/-- A counter of 64 bits has counted so much, and started again from zero where it had to. -/
def Counted (counter : UInt64) (count : Nat) : Prop :=
  counter.toNat = count % 2 ^ 64

theorem counted_toUInt64 (count : Nat) : Counted count.toUInt64 count :=
  UInt64.toNat_ofNat'

/-- The objects of a frame are its detections, each with the metrics the engine reported for it. -/
structure PairsInOrder (taken : PipelineStep) : Prop where
  detections : taken.outcome.assessment.objects.map (·.detection) = taken.frame.detections
  metrics : taken.outcome.assessment.objects.map (·.metrics) = taken.outcome.report.metrics

/-- What a pipeline says of itself after some frames agrees with what it was given and returned. -/
structure CountersAgree (p : Pipeline) (frames : List Frame) : Prop where
  inputs : (p.run frames).map (·.frame) = frames
  numbers : (p.run frames).map (·.outcome.assessment.frame) = List.range frames.length
  framesProcessed : (p.after frames).nextFrame = frames.length
  paired : ∀ taken ∈ p.run frames, PairsInOrder taken
  totalFrames : Counted (p.after frames).counters.totalFrames frames.length
  framesWithDetections : Counted (p.after frames).counters.framesWithDetections
    (frames.countP fun f => f.detections ≠ [])
  detections : Counted (p.after frames).counters.detections
    (frames.map (·.detections.length)).sum
  cautionFrames : Counted (p.after frames).counters.cautionFrames
    ((p.run frames).countP fun taken => taken.outcome.assessment.level = .caution)
  warnFrames : Counted (p.after frames).counters.warnFrames
    ((p.run frames).countP fun taken => taken.outcome.assessment.level = .warn)
  levelChanges : Counted (p.after frames).counters.levelChanges
    (levelChanges ((p.run frames).flatMap (·.outcome.events))).length
  warnOnsets : Counted (p.after frames).counters.warnOnsets
    (warnOnsets ((p.run frames).flatMap (·.outcome.events))).length
  /-- Nothing is ever subtracted from less. -/
  reaped_le : ∀ n taken, (p.run frames)[n]? = some taken →
    (p.after (frames.take n)).lastReaped ≤ taken.pipeline.engine.reapedTotal
  tracksReaped : Counted (p.after frames).counters.tracksReaped
    (p.after frames).engine.reapedTotal
  activeTracks : Counted (p.after frames).counters.activeTracks
    (p.after frames).engine.tracks.size

theorem pairsInOrder_step (p : Pipeline) (f : Frame) : PairsInOrder (p.step f) where
  detections := by
    rw [p.step_objects, List.map_map]
    exact p.sightings_detections f
  metrics := by
    rw [p.step_objects, List.map_map]
    rfl

theorem lastReaped_le_reapedTotal_step {p : Pipeline}
    (hreaped : p.lastReaped = p.engine.reapedTotal) (f : Frame) :
    p.lastReaped ≤ (p.step f).pipeline.engine.reapedTotal := by
  rw [hreaped, Pipeline.reapedTotal_step]
  exact Nat.le_add_right _ _

/-- Each counter agrees with what the pipeline was given and returned, however many of the events
the queue has dropped. -/
theorem counters_agree
    {settings : RiskSettings} {fpsSource : FpsSource} {capacity : Nat} {p : Pipeline}
    (hnew : Pipeline.ofSettings settings fpsSource capacity = .ok p) (frames : List Frame) :
    CountersAgree p frames := by
  obtain ⟨-, rfl⟩ := Pipeline.ofSettings_eq_ok_iff.mp hnew
  have hcounted (name : Counters.Name) (hname : name ≠ .activeTracks) :
      Counted (((Pipeline.new settings fpsSource capacity).after frames).counters.value name)
        (tally ((Pipeline.new settings fpsSource capacity).run frames) name) := by
    rw [Pipeline.value_after settings fpsSource capacity frames hname]
    exact counted_toUInt64 _
  refine {
    inputs := Pipeline.frames_run _ frames
    numbers := Pipeline.numbers_run settings fpsSource capacity frames
    framesProcessed := (Pipeline.nextFrame_after _ frames).trans (Nat.zero_add _)
    paired := ?paired
    totalFrames := ?totalFrames
    framesWithDetections := ?framesWithDetections
    detections := ?detections
    cautionFrames := hcounted .cautionFrames (by decide)
    warnFrames := hcounted .warnFrames (by decide)
    levelChanges := hcounted .levelChanges (by decide)
    warnOnsets := hcounted .warnOnsets (by decide)
    reaped_le := ?reaped_le
    tracksReaped := ?tracksReaped
    activeTracks := ?activeTracks }
  case paired =>
    intro taken hmem
    obtain ⟨n, hn⟩ := List.mem_iff_getElem?.mp hmem
    obtain ⟨f, -, rfl⟩ := Pipeline.exists_step_of_getElem?_run hn
    exact pairsInOrder_step _ f
  case totalFrames =>
    have htotal := hcounted .totalFrames (by decide)
    rwa [tally, Pipeline.length_run] at htotal
  case framesWithDetections =>
    rw [← Pipeline.tally_run_framesWithDetections (.new settings fpsSource capacity)]
    exact hcounted .framesWithDetections (by decide)
  case detections =>
    rw [← Pipeline.tally_run_detections (.new settings fpsSource capacity)]
    exact hcounted .detections (by decide)
  case reaped_le =>
    intro n taken htaken
    obtain ⟨f, -, rfl⟩ := Pipeline.exists_step_of_getElem?_run htaken
    exact lastReaped_le_reapedTotal_step (Pipeline.lastReaped_after ..) f
  case tracksReaped =>
    rw [Pipeline.tracksReaped_after]
    exact counted_toUInt64 _
  case activeTracks =>
    rw [Pipeline.activeTracks_after]
    exact counted_toUInt64 _

/-- A person who becomes a warning is forgotten on an empty frame and comes back with another one,
while a queue for a single event keeps losing the earlier events. -/
theorem counters_agree_forgotten_person :
    let settings := { RiskSettings.default with staleFrames := 0 }
    let p := Pipeline.new settings (.constant 30) 1
    let person : Detection := ⟨1, 0, "Person", 1, ⟨260, 100, 380, 400⟩⟩
    let other : Detection := ⟨2, 0, "Person", 1, ⟨270, 100, 390, 400⟩⟩
    let frames : List Frame :=
      [⟨⟨640, 480⟩, none, [person]⟩, ⟨⟨640, 480⟩, none, []⟩, ⟨⟨640, 480⟩, none, [person, other]⟩]
    Pipeline.ofSettings settings (.constant 30) 1 = .ok p ∧ CountersAgree p frames ∧
      (p.after frames).queue.dropped = 5 ∧
      (p.after frames).counters.toList = [3, 2, 3, 0, 2, 3, 3, 1, 2] := by
  intro settings p person other frames
  have hdefault := (RiskEngine.ofSettings_eq_ok_iff.mp RiskEngine.ofSettings_default).1
  have hnew : Pipeline.ofSettings settings (.constant 30) 1 = .ok p :=
    Pipeline.ofSettings_eq_ok_iff.mpr ⟨hdefault, rfl⟩
  exact ⟨hnew, counters_agree hnew frames, by decide +kernel⟩

end ObstacleWatch
