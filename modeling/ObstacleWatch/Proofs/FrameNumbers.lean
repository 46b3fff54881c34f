import Mathlib.Data.List.Forall2
import ObstacleWatch.Proofs.PipelineRun

/-!
# Absolute frame numbers

The engine uses the number of a frame in two ways.  It makes up the key of an unrecognised object
from it, and it subtracts from it the frame a track was last seen on.  To add the same amount to all
numbers renames the keys, no two of them to the same, and leaves every difference as it is, also
where the subtraction stops at zero.  So the engine that has all its frame numbers moved takes a
moved frame to the moved outcome (`RiskEngine.step_later`), and this holds along every run, in
whatever order the numbers come.
-/

namespace ObstacleWatch

/-! ## Moving what holds a frame number -/

/-- The identity with its frame, if it has one, moved to a later number. -/
def TrackIdentity.later (c : Nat) : TrackIdentity → TrackIdentity
  | .tracked id => .tracked id
  | .ephemeral frame position => .ephemeral (frame + c) position

theorem TrackIdentity.later_injective (c : Nat) : Function.Injective (later c) := by
  intro a b heq
  cases a <;> cases b <;> simp_all [later]

namespace TrackKey

def later (c : Nat) (key : TrackKey) : TrackKey :=
  ⟨key.className, key.identity.later c⟩

theorem later_injective (c : Nat) : Function.Injective (later c) := by
  intro a b heq
  obtain ⟨hname, hidentity⟩ := TrackKey.mk.inj heq
  have hsame := TrackIdentity.later_injective c hidentity
  cases a
  cases b
  simp_all

theorem ofDetection_later (c frame position : Nat) (d : Detection) :
    ofDetection (frame + c) position d = (ofDetection frame position d).later c := by
  unfold ofDetection later
  split <;> rfl

@[simp] theorem isEphemeral_later (c : Nat) (key : TrackKey) :
    (key.later c).isEphemeral = key.isEphemeral := by
  obtain ⟨name, identity⟩ := key
  cases identity <;> rfl

end TrackKey

namespace Track

def later (c : Nat) (t : Track) : Track :=
  { t with lastSeen := t.lastSeen + c }

theorem found_later (c frame : Nat) (slot : Option Track) :
    found (frame + c) (slot.map (later c)) = (found frame slot).later c := by
  cases slot <;> rfl

theorem isStale_later_iff {c frame staleFrames : Nat} {t : Track} :
    (t.later c).IsStale (frame + c) staleFrames ↔ t.IsStale frame staleFrames := by
  unfold IsStale later
  rw [Nat.add_sub_add_right]

end Track

namespace TrackMap

def entryLater (c : Nat) (e : TrackKey × Track) : TrackKey × Track :=
  (e.1.later c, e.2.later c)

theorem map_fst_entryLater (c : Nat) (entries : List (TrackKey × Track)) :
    (entries.map (entryLater c)).map Prod.fst = (entries.map Prod.fst).map (TrackKey.later c) := by
  rw [List.map_map, List.map_map]
  rfl

def later (c : Nat) (m : TrackMap) : TrackMap where
  entries := m.entries.map (entryLater c)
  nodup := by
    rw [map_fst_entryLater]
    exact m.nodup.map (TrackKey.later_injective c)

variable (c : Nat) (m : TrackMap) (key : TrackKey)

@[simp] theorem size_later : (m.later c).size = m.size :=
  List.length_map _

theorem get?_later : (m.later c).get? (key.later c) = (m.get? key).map (Track.later c) := by
  have hlookup (entries : List (TrackKey × Track)) :
      (entries.map (entryLater c)).lookup (key.later c) =
        (entries.lookup key).map (Track.later c) := by
    induction entries with
    | nil => rfl
    | cons e rest ih =>
        obtain ⟨other, t⟩ := e
        by_cases hkey : key = other
        · subst hkey
          simp [entryLater]
        · have hne : key.later c ≠ other.later c := fun heq =>
            hkey (TrackKey.later_injective c heq)
          have hbeq : (key == other) = false := beq_false_of_ne hkey
          have hlater : (key.later c == (entryLater c (other, t)).1) = false :=
            beq_false_of_ne hne
          rw [List.map_cons, List.lookup_cons, List.lookup_cons, hbeq, hlater]
          exact ih
  exact hlookup m.entries

theorem filter_later {keep keepLater : TrackKey × Track → Bool}
    (hkeep : ∀ e, keepLater (entryLater c e) = keep e) :
    (m.later c).filter keepLater = (m.filter keep).later c := by
  ext1
  calc (m.entries.map (entryLater c)).filter keepLater
      = (m.entries.filter (keepLater ∘ entryLater c)).map (entryLater c) := List.filter_map
    _ = (m.entries.filter keep).map (entryLater c) :=
      congrArg (List.map _) (List.filter_congr fun e _ => hkeep e)

theorem erase_later : (m.later c).erase (key.later c) = (m.erase key).later c := by
  apply filter_later
  intro e
  rw [decide_eq_decide]
  exact not_congr (TrackKey.later_injective c).eq_iff

theorem insert_later (t : Track) :
    (m.later c).insert (key.later c) (t.later c) = (m.insert key t).later c := by
  have herase := congrArg TrackMap.entries (m.erase_later c key)
  ext1
  exact congrArg (entryLater c (key, t) :: ·) herase

theorem reap_later (frame staleFrames : Nat) :
    (m.later c).reap (frame + c) staleFrames = (m.reap frame staleFrames).later c := by
  apply filter_later
  intro e
  exact congrArg (!·) (decide_eq_decide.mpr Track.isStale_later_iff)

theorem staleCount_later (frame staleFrames : Nat) :
    (m.later c).staleCount (frame + c) staleFrames = m.staleCount frame staleFrames := by
  rw [staleCount, reap_later, size_later, size_later, staleCount]

end TrackMap

def FrameContext.later (c : Nat) (ctx : FrameContext) : FrameContext :=
  { ctx with index := ctx.index + c }

def EngineFrame.later (c : Nat) (f : EngineFrame) : EngineFrame :=
  ⟨f.context.later c, f.detections⟩

def Sighting.later (c : Nat) (s : Sighting) : Sighting :=
  { s with frame := s.frame + c, key := s.key.later c }

def EngineReport.later (c : Nat) (r : EngineReport) : EngineReport :=
  { r with sightings := r.sightings.map (Sighting.later c) }

def RiskEngine.later (c : Nat) (e : RiskEngine) : RiskEngine :=
  { e with tracks := e.tracks.later c }

def EngineStep.later (c : Nat) (taken : EngineStep) : EngineStep :=
  ⟨taken.frame.later c, taken.engine.later c, taken.report.later c⟩

/-! ## The engine on moved frames -/

section

variable (c : Nat) (settings : RiskSettings) (ctx : FrameContext)

theorem slotSight_later (key : TrackKey) (slot : Option Track) (d : Detection) :
    slotSight settings (ctx.later c) (key.later c) (slot.map (Track.later c)) d =
      ((slotSight settings ctx key slot d).1.later c,
        (slotSight settings ctx key slot d).2.later c) := by
  unfold slotSight
  rw [FrameContext.later, Track.found_later, Option.isNone_map]
  rfl

theorem sight_later (position : Nat) (m : TrackMap) (d : Detection) :
    sight settings (ctx.later c) position (m.later c) d =
      ((sight settings ctx position m d).1.later c,
        (sight settings ctx position m d).2.later c) := by
  have hkey : TrackKey.ofDetection (ctx.later c).index position d =
      (TrackKey.ofDetection ctx.index position d).later c :=
    TrackKey.ofDetection_later c ctx.index position d
  rw [sight_eq, sight_eq, hkey, TrackMap.get?_later, slotSight_later, TrackMap.insert_later]

theorem sightAll_later (position : Nat) (m : TrackMap) (ds : List Detection) :
    sightAll settings (ctx.later c) position (m.later c) ds =
      ((sightAll settings ctx position m ds).1.later c,
        (sightAll settings ctx position m ds).2.map (Sighting.later c)) := by
  induction ds generalizing position m with
  | nil => rfl
  | cons d ds ih => rw [sightAll_cons, sight_later, ih, sightAll_cons, List.map_cons]

theorem dropEphemeral_later (m : TrackMap) (ss : List Sighting) :
    dropEphemeral (m.later c) (ss.map (Sighting.later c)) = (dropEphemeral m ss).later c := by
  unfold dropEphemeral
  have hfilter : (ss.map (Sighting.later c)).filter (·.key.isEphemeral) =
      (ss.filter (·.key.isEphemeral)).map (Sighting.later c) := by
    rw [List.filter_map]
    exact congrArg (List.map _) (List.filter_congr fun s _ => s.key.isEphemeral_later c)
  rw [hfilter]
  generalize ss.filter (·.key.isEphemeral) = dropped
  induction dropped generalizing m with
  | nil => rfl
  | cons s rest ih =>
      have herase : (m.later c).erase (s.later c).key = (m.erase s.key).later c :=
        m.erase_later c s.key
      rw [List.map_cons, List.foldl_cons, herase, ih, List.foldl_cons]

end

namespace RiskEngine

variable (c : Nat) (e : RiskEngine)

theorem step_later (f : EngineFrame) : (e.later c).step (f.later c) = (e.step f).later c := by
  let seen := sightAll e.settings f.context 0 e.tracks f.detections
  have hseen : sightAll e.settings (f.context.later c) 0 (e.tracks.later c) f.detections =
      (seen.1.later c, seen.2.map (Sighting.later c)) :=
    sightAll_later c e.settings f.context 0 e.tracks f.detections
  have hleft : (dropEphemeral (seen.1.later c) (seen.2.map (Sighting.later c))).reap
      (f.context.index + c) e.settings.staleFrames =
        ((dropEphemeral seen.1 seen.2).reap f.context.index e.settings.staleFrames).later c := by
    rw [dropEphemeral_later, TrackMap.reap_later]
  have hcount : (dropEphemeral (seen.1.later c) (seen.2.map (Sighting.later c))).staleCount
      (f.context.index + c) e.settings.staleFrames =
        (dropEphemeral seen.1 seen.2).staleCount f.context.index e.settings.staleFrames := by
    rw [dropEphemeral_later, TrackMap.staleCount_later]
  simp only [step, update, later, EngineFrame.later, hseen]
  simp only [FrameContext.later, hleft, hcount, TrackMap.size_later]
  rfl

theorem run_later (frames : List EngineFrame) :
    (e.later c).run (frames.map (EngineFrame.later c)) =
      (e.run frames).map (EngineStep.later c) := by
  induction frames generalizing e with
  | nil => rfl
  | cons f fs ih =>
      have hengine : ((e.later c).step (f.later c)).engine = (e.step f).engine.later c :=
        congrArg EngineStep.engine (e.step_later c f)
      rw [List.map_cons, run_cons, hengine, ih, step_later, run_cons, List.map_cons]

end RiskEngine

theorem EngineStep.metrics_later (c : Nat) (taken : EngineStep) :
    (taken.later c).report.metrics = taken.report.metrics := by
  unfold EngineReport.metrics
  exact List.map_map

/-! ## The pipeline behind empty frames -/

def FrameAssessment.later (c : Nat) (a : FrameAssessment) : FrameAssessment :=
  { a with frame := a.frame + c }

/-- Two steps of two engines report the same. -/
structure EngineStep.ReportsLike (taken₁ taken₂ : EngineStep) : Prop where
  metrics : taken₁.report.metrics = taken₂.report.metrics
  activeTracks : taken₁.engine.tracks.size = taken₂.engine.tracks.size
  reapedTotal : taken₁.engine.reapedTotal = taken₂.engine.reapedTotal

/-- Two steps of two pipelines tell the same of a frame that has a number greater by `c` in the
second one. -/
structure PipelineStep.TellsLike (c : Nat) (taken₁ taken₂ : PipelineStep) : Prop where
  assessment : taken₂.outcome.assessment = taken₁.outcome.assessment.later c
  metrics : taken₁.outcome.report.metrics = taken₂.outcome.report.metrics
  level : taken₁.outcome.assessment.level = taken₂.outcome.assessment.level
  currentLevel : taken₁.pipeline.currentLevel = taken₂.pipeline.currentLevel

namespace Pipeline

/-- Two pipelines at a constant frame rate, of which the second is `c` frames ahead.  Their queues
and counters are left open. -/
structure AheadBy (c : Nat) (fps : Float) (p₁ p₂ : Pipeline) : Prop where
  engine : p₂.engine = p₁.engine.later c
  fpsSource₁ : p₁.fpsSource = .constant fps
  fpsSource₂ : p₂.fpsSource = .constant fps
  alarms : p₂.alarms = p₁.alarms
  nextFrame : p₂.nextFrame = p₁.nextFrame + c

section

variable {c : Nat} {fps : Float} {p p₁ p₂ : Pipeline}

theorem engineFrame_of_constant (hp : p.fpsSource = .constant fps) (f : Frame) :
    p.engineFrame f = ⟨⟨f.size, p.nextFrame, fps⟩, f.detections⟩ := by
  unfold engineFrame fpsOf
  rw [hp]

theorem AheadBy.engineStep (hp : AheadBy c fps p₁ p₂) (f : Frame) :
    p₂.engine.step (p₂.engineFrame f) = (p₁.engine.step (p₁.engineFrame f)).later c := by
  have hframe : p₂.engineFrame f = (p₁.engineFrame f).later c := by
    rw [engineFrame_of_constant hp.fpsSource₁, engineFrame_of_constant hp.fpsSource₂,
      hp.nextFrame]
    rfl
  rw [hp.engine, hframe, RiskEngine.step_later]

theorem AheadBy.metrics (hp : AheadBy c fps p₁ p₂) (f : Frame) :
    (p₁.step f).outcome.report.metrics = (p₂.step f).outcome.report.metrics := by
  rw [step_report, step_report, hp.engineStep, EngineStep.metrics_later]

theorem assessment_of_constant (hp : p.fpsSource = .constant fps) (f : Frame) :
    (p.step f).outcome.assessment =
      .ofLists p.nextFrame fps f.detections (p.step f).outcome.report.metrics := by
  have hfps : p.fpsOf (p.rateAfter f.timestamp) = fps := by
    unfold fpsOf
    rw [hp]
  rw [← hfps]
  rfl

theorem AheadBy.assessment (hp : AheadBy c fps p₁ p₂) (f : Frame) :
    (p₂.step f).outcome.assessment = (p₁.step f).outcome.assessment.later c := by
  rw [assessment_of_constant hp.fpsSource₁, assessment_of_constant hp.fpsSource₂, hp.metrics,
    hp.nextFrame]
  rfl

theorem AheadBy.alarms_step (hp : AheadBy c fps p₁ p₂) (f : Frame) :
    (p₂.step f).pipeline.alarms = (p₁.step f).pipeline.alarms := by
  have hgate (p : Pipeline) : (p.step f).pipeline.alarms =
      p.alarms.next (p.step f).outcome.assessment := rfl
  rw [hgate, hgate, hp.assessment]
  rfl

theorem AheadBy.step (hp : AheadBy c fps p₁ p₂) (f : Frame) :
    AheadBy c fps (p₁.step f).pipeline (p₂.step f).pipeline where
  engine := by
    rw [step_engine, step_engine, hp.engineStep]
    rfl
  fpsSource₁ := hp.fpsSource₁
  fpsSource₂ := hp.fpsSource₂
  alarms := hp.alarms_step f
  nextFrame := by
    have hnext (p : Pipeline) : (p.step f).pipeline.nextFrame = p.nextFrame + 1 := rfl
    rw [hnext, hnext, hp.nextFrame]
    omega

theorem AheadBy.tellsLike (hp : AheadBy c fps p₁ p₂) (f : Frame) :
    (p₁.step f).TellsLike c (p₂.step f) where
  assessment := hp.assessment f
  metrics := hp.metrics f
  level := by
    rw [hp.assessment]
    rfl
  currentLevel := congrArg AlarmGate.level (hp.alarms_step f).symm

theorem AheadBy.run (hp : AheadBy c fps p₁ p₂) (frames : List Frame) :
    List.Forall₂ (PipelineStep.TellsLike c) (p₁.run frames) (p₂.run frames) := by
  induction frames generalizing p₁ p₂ with
  | nil => exact .nil
  | cons f fs ih => exact .cons (hp.tellsLike f) (ih (hp.step f))

/-- Frames without detections leave a new pipeline as it is, but for the number of the next frame
and what was counted. -/
theorem aheadBy_after_empty (settings : RiskSettings) (fps : Float) (capacity : Nat)
    {gap : List Frame} (hgap : ∀ f ∈ gap, f.detections = []) :
    AheadBy gap.length fps (new settings (.constant fps) capacity)
      ((new settings (.constant fps) capacity).after gap) := by
  let p := new settings (.constant fps) capacity
  induction gap using List.reverseRecOn with
  | nil => exact ⟨rfl, rfl, rfl, rfl, rfl⟩
  | append_singleton past f ih =>
      have hpast := ih fun g hg => hgap g (List.mem_append_left _ hg)
      have hempty : f.detections = [] :=
        hgap f (List.mem_append_right _ (List.mem_singleton_self f))
      rw [after_concat, List.length_append, List.length_singleton]
      refine ⟨?_, rfl, hpast.fpsSource₂, ?_, ?_⟩
      · have hengine : (p.after past).engine = ⟨settings, .empty, 0⟩ := hpast.engine
        rw [step_engine, engineFrame_of_constant hpast.fpsSource₂, hengine, hempty]
        rfl
      · have hgate : ((p.after past).step f).pipeline.alarms =
            (p.after past).alarms.next ((p.after past).step f).outcome.assessment := rfl
        rw [hgate, assessment_of_constant hpast.fpsSource₂, hempty]
        rfl
      · have hnext : ((p.after past).step f).pipeline.nextFrame =
            (p.after past).nextFrame + 1 := rfl
        rw [hnext, hpast.nextFrame, Nat.add_assoc]

end

/-- Frame numbers that are all greater by the same amount change no report of the engine; and a
pipeline at a constant frame rate tells of its frames the same whether or not frames without
detections went before. -/
theorem run_of_renumbered_frames (settings : RiskSettings) (c : Nat) (frames : List EngineFrame)
    (fps : Float) (capacity : Nat) {gap : List Frame} (hgap : ∀ f ∈ gap, f.detections = [])
    (shown : List Frame) :
    List.Forall₂ EngineStep.ReportsLike
        (RiskEngine.run ⟨settings, .empty, 0⟩ frames)
        (RiskEngine.run ⟨settings, .empty, 0⟩ (frames.map (EngineFrame.later c))) ∧
      List.Forall₂ (PipelineStep.TellsLike gap.length)
        ((new settings (.constant fps) capacity).run shown)
        (((new settings (.constant fps) capacity).after gap).run shown) := by
  refine ⟨?_, (aheadBy_after_empty settings fps capacity hgap).run shown⟩
  let engine : RiskEngine := ⟨settings, .empty, 0⟩
  have hrun : engine.run (frames.map (EngineFrame.later c)) =
      (engine.run frames).map (EngineStep.later c) := engine.run_later c frames
  rw [hrun, List.forall₂_map_right_iff]
  refine List.forall₂_same.mpr fun taken _ => ⟨?_, ?_, rfl⟩
  · exact (taken.metrics_later c).symm
  · exact (taken.engine.tracks.size_later c).symm

/-- Numbers that go back and come twice, with a stranger on each frame, moved by a million; and two
empty frames before a person is shown. -/
theorem run_of_renumbered_frames_backwards :
    let person : Detection := ⟨1, 0, "Person", 1, ⟨260, 100, 380, 400⟩⟩
    let stranger : Detection := ⟨-1, 0, "Person", 1, ⟨20, 100, 60, 160⟩⟩
    let frame (index : Nat) : EngineFrame := ⟨⟨⟨640, 480⟩, index, 30⟩, [stranger, person]⟩
    let frames : List EngineFrame := [frame 7, frame 2, frame 2, frame 90]
    let gap : List Frame := [⟨⟨640, 480⟩, none, []⟩, ⟨⟨0, 0⟩, some 5, []⟩]
    let shown : List Frame := [⟨⟨640, 480⟩, none, [person, stranger]⟩]
    (∀ f ∈ gap, f.detections = []) ∧
      List.Forall₂ EngineStep.ReportsLike
        (RiskEngine.run ⟨.default, .empty, 0⟩ frames)
        (RiskEngine.run ⟨.default, .empty, 0⟩ (frames.map (EngineFrame.later 1000000))) ∧
      List.Forall₂ (PipelineStep.TellsLike gap.length)
        ((new .default (.constant 30) 16).run shown)
        (((new .default (.constant 30) 16).after gap).run shown) := by
  intro person stranger frame frames gap shown
  have hgap : ∀ f ∈ gap, f.detections = [] := by
    simp [gap]
  exact ⟨hgap, run_of_renumbered_frames .default 1000000 frames 30 16 hgap shown⟩

end Pipeline

end ObstacleWatch
