import ObstacleWatch.Proofs.CounterTally
import ObstacleWatch.Proofs.TopObject
import ObstacleWatch.Proofs.TrackWindow

/-!
# The order of detections

Detections of different objects can change places on their frame without anybody noticing.  A
tracked object is seen through its slot, which reads its own detections in their order and nothing
else; an unrecognised one is assessed as if it were alone.  So two engines that hold the same tracks
pair the same detections with the same metrics, and hold the same tracks afterwards.  What the
pipeline makes of a frame, apart from the order in which it tells it, depends on these pairs as a
multiset.
-/

namespace ObstacleWatch

variable {settings : RiskSettings}

/-- Two lists are rearrangements of each other if each element is in a part of which this holds. -/
theorem perm_of_forall_filter_perm {α : Type} {l₁ l₂ : List α}
    (hparts : ∀ x, ∃ p : α → Bool, p x = true ∧ (l₁.filter p).Perm (l₂.filter p)) :
    l₁.Perm l₂ := by
  classical
  rw [List.perm_iff_count]
  intro x
  obtain ⟨p, hx, hperm⟩ := hparts x
  rw [← List.count_filter (l := l₁) hx, ← List.count_filter (l := l₂) hx]
  exact hperm.count_eq x

/-! ## One frame of the engine -/

/-- Two frames differ only in the order of their detections, and each tracked object has its own
detections in the same order on both. -/
structure EngineFrame.Rearranges (f₁ f₂ : EngineFrame) : Prop where
  context : f₁.context = f₂.context
  detections : f₁.detections.Perm f₂.detections
  objects : ∀ name id, f₁.detections.filter (fun d => d.Shows name id) =
    f₂.detections.filter fun d => d.Shows name id

theorem EngineFrame.Rearranges.restrict_eq {f₁ f₂ : EngineFrame} (hframes : f₁.Rearranges f₂)
    (name : String) (id : Int) :
    f₁.restrict (Detection.Shows name id) = f₂.restrict (Detection.Shows name id) := by
  rw [EngineFrame.restrict, EngineFrame.restrict, hframes.context, hframes.objects]

/-- Two engines hold the same tracks and have reaped as many. -/
structure RiskEngine.SameTracks (e₁ e₂ : RiskEngine) : Prop where
  settings : e₁.settings = e₂.settings
  reapedTotal : e₁.reapedTotal = e₂.reapedTotal
  allTracked₁ : e₁.tracks.AllTracked
  allTracked₂ : e₂.tracks.AllTracked
  get?_eq : ∀ key, e₁.tracks.get? key = e₂.tracks.get? key

theorem TrackMap.get?_eq_of_objects {m₁ m₂ : TrackMap} (h₁ : m₁.AllTracked) (h₂ : m₂.AllTracked)
    (hobjects : ∀ name id, m₁.get? (.object name id) = m₂.get? (.object name id))
    (key : TrackKey) : m₁.get? key = m₂.get? key := by
  obtain ⟨name, identity⟩ := key
  cases identity with
  | tracked id => exact hobjects name id
  | ephemeral frame position =>
      rw [h₁.get?_of_isEphemeral rfl, h₂.get?_of_isEphemeral rfl]

namespace RiskEngine

variable {e₁ e₂ : RiskEngine} {f₁ f₂ : EngineFrame}

theorem SameTracks.sightAll_get?_eq (he : e₁.SameTracks e₂) (hframes : f₁.Rearranges f₂)
    (key : TrackKey) :
    (sightAll e₁.settings f₁.context 0 e₁.tracks f₁.detections).1.tracked.get? key =
      (sightAll e₂.settings f₂.context 0 e₂.tracks f₂.detections).1.tracked.get? key := by
  apply TrackMap.get?_eq_of_objects (TrackMap.allTracked_tracked _) (TrackMap.allTracked_tracked _)
  intro name id
  have hslot (e : RiskEngine) (f : EngineFrame) :
      (sightAll e.settings f.context 0 e.tracks f.detections).1.tracked.get? (.object name id) =
        (slotSightAll e.settings f.context (.object name id) (e.tracks.get? (.object name id))
          (f.detections.filter fun d => d.Shows name id)).1 := by
    rw [TrackMap.get?_tracked (TrackKey.isEphemeral_object name id)]
    exact congrArg Prod.fst (sightAll_project e.settings f.context name id 0 e.tracks f.detections)
  rw [hslot, hslot, he.settings, hframes.context, hframes.objects, he.get?_eq]

theorem SameTracks.step (he : e₁.SameTracks e₂) (hframes : f₁.Rearranges f₂) :
    (e₁.step f₁).engine.SameTracks (e₂.step f₂).engine where
  settings := he.settings
  reapedTotal := by
    rw [step_engine he.allTracked₁, step_engine he.allTracked₂]
    dsimp only
    rw [TrackMap.staleCount_eq_of_get?_eq (he.sightAll_get?_eq hframes), he.reapedTotal,
      he.settings, hframes.context]
  allTracked₁ := allTracked_step he.allTracked₁ f₁
  allTracked₂ := allTracked_step he.allTracked₂ f₂
  get?_eq := by
    intro key
    rw [step_engine he.allTracked₁, step_engine he.allTracked₂]
    dsimp only
    rw [TrackMap.get?_reap, TrackMap.get?_reap, he.sightAll_get?_eq hframes, he.settings,
      hframes.context]

end RiskEngine

def Sighting.object (s : Sighting) : AssessedObject :=
  ⟨s.detection, s.metrics⟩

namespace RiskEngine

variable {e e₁ e₂ : RiskEngine} {f f₁ f₂ : EngineFrame}

theorem filter_shows_step (e : RiskEngine) (f : EngineFrame) (name : String) (id : Int) :
    ((e.step f).report.sightings.filter fun s => s.detection.Shows name id) =
      (slotStep e.settings (.object name id) (e.tracks.get? (.object name id))
        (f.restrict (Detection.Shows name id))).2 := by
  have hmem : e.step f ∈ e.run [f] := by simp [run_cons]
  rw [← filter_key_eq name id hmem, ← step_project]

/-- The unrecognised objects of a frame are its detections without a number, each assessed by
itself. -/
theorem untracked_objects_step (he : e.tracks.AllTracked) (f : EngineFrame) :
    ((e.step f).report.sightings.filter fun s => ¬s.detection.IsTracked).map Sighting.object =
      (f.detections.filter fun d => ¬d.IsTracked).map fun d =>
        ⟨d, firstMetrics e.settings f.context.size d⟩ := by
  have hmem : e.step f ∈ e.run [f] := by simp [run_cons]
  have hdetections := detections_of_mem_run hmem
  rw [step_frame] at hdetections
  conv_rhs => rw [← hdetections, List.filter_map, List.map_map]
  apply List.map_congr_left
  intro s hs
  obtain ⟨hs, huntracked⟩ := List.mem_filter.mp hs
  have hmetrics := sighting_metrics_of_untracked he hmem hs (of_decide_eq_true huntracked)
  rw [Sighting.object, hmetrics]
  rfl

theorem SameTracks.objects_perm (he : e₁.SameTracks e₂) (hframes : f₁.Rearranges f₂) :
    ((e₁.step f₁).report.sightings.map Sighting.object).Perm
      ((e₂.step f₂).report.sightings.map Sighting.object) := by
  apply perm_of_forall_filter_perm
  intro o
  by_cases htracked : o.detection.IsTracked
  -- The slot of a tracked object sees the same detections in the same order.
  · let name := o.detection.className
    let id := o.detection.trackId
    have hself : o.detection.Shows name id := ⟨htracked, rfl, rfl⟩
    have hparts : ((e₁.step f₁).report.sightings.filter fun s => s.detection.Shows name id) =
        (e₂.step f₂).report.sightings.filter fun s => s.detection.Shows name id := by
      rw [filter_shows_step, filter_shows_step, he.settings, he.get?_eq, hframes.restrict_eq]
    refine ⟨fun o => o.detection.Shows name id, decide_eq_true hself, .of_eq ?_⟩
    rw [List.filter_map, List.filter_map]
    exact congrArg (List.map Sighting.object) hparts
  -- An unrecognised object takes its metrics along to its new place.
  · refine ⟨fun o => ¬o.detection.IsTracked, decide_eq_true htracked, ?_⟩
    have huntracked := (hframes.detections.filter fun d => decide ¬d.IsTracked).map
      fun d => AssessedObject.mk d (firstMetrics e₁.settings f₁.context.size d)
    rw [← untracked_objects_step he.allTracked₁, he.settings, hframes.context,
      ← untracked_objects_step he.allTracked₂] at huntracked
    rw [List.filter_map, List.filter_map]
    exact huntracked

theorem step_scores_hasPlusSign (hs : e.settings.Admissible) (f : EngineFrame) :
    ∀ s ∈ (e.step f).report.sightings, HasPlusSign s.metrics.score := by
  intro s hmem
  rw [step_sightings] at hmem
  have hkept : KeptBySights e.settings fun _ => True := fun _ _ _ _ _ => trivial
  obtain ⟨key, slot, -, hsight⟩ :=
    (hkept.sightAll f.context (m := e.tracks) (fun _ _ _ => trivial) 0 f.detections).2 s hmem
  rw [hsight]
  exact hs.score_hasPlusSign _

end RiskEngine

/-! ## One frame of the alarm gate -/

/-- Two gates remember the same level and the same warnings. -/
structure AlarmGate.SameWarned (g₁ g₂ : AlarmGate) : Prop where
  level : g₁.level = g₂.level
  warned : g₁.warned.Perm g₂.warned

structure FrameAssessment.SameObjects (a₁ a₂ : FrameAssessment) : Prop where
  frame : a₁.frame = a₂.frame
  objects : a₁.objects.Perm a₂.objects

/-- What a level change tells, apart from the object. -/
def LevelChange.told (c : LevelChange) : Nat × DangerLevel × DangerLevel :=
  (c.frame, c.before, c.after)

namespace AlarmGate

variable {g g₁ g₂ : AlarmGate} {a a₁ a₂ : FrameAssessment}

theorem SameWarned.levelChanges_told (hg : g₁.SameWarned g₂) (ha : a₁.SameObjects a₂) :
    (levelChanges (g₁.events a₁)).map LevelChange.told =
      (levelChanges (g₂.events a₂)).map LevelChange.told := by
  have hlevel := FrameAssessment.level_eq_of_perm ha.objects
  rw [levelChanges_events, levelChanges_events, levelChange?, levelChange?, hlevel, hg.level]
  split
  · rfl
  · simp [LevelChange.told, ha.frame]

theorem SameWarned.starts_iff (hg : g₁.SameWarned g₂) (o : AssessedObject) :
    g₁.Starts o ↔ g₂.Starts o := by
  rw [Starts, Starts, hg.warned.mem_iff]

theorem SameWarned.warnOnsets_perm (hg : g₁.SameWarned g₂) (ha : a₁.SameObjects a₂) :
    (warnOnsets (g₁.events a₁)).Perm (warnOnsets (g₂.events a₂)) := by
  have hstarts : (fun o => decide (g₁.Starts o)) = fun o => decide (g₂.Starts o) := by
    funext o
    rw [decide_eq_decide]
    exact hg.starts_iff o
  rw [warnOnsets_events, warnOnsets_events, onsets, onsets, hstarts, ha.frame]
  exact (ha.objects.filter _).map _

theorem SameWarned.next (_ : g₁.SameWarned g₂) (ha : a₁.SameObjects a₂) :
    (g₁.next a₁).SameWarned (g₂.next a₂) where
  level := FrameAssessment.level_eq_of_perm ha.objects
  warned := (ha.objects.filter _).map _

theorem map_counter_events (g : AlarmGate) (a : FrameAssessment) :
    (g.events a).map AlarmEvent.counter =
      List.replicate (levelChanges (g.events a)).length .levelChanges ++
        List.replicate (warnOnsets (g.events a)).length .warnOnsets := by
  rw [levelChanges_events, warnOnsets_events, events, List.map_append, List.map_map, List.map_map]
  congr 1
  · exact List.map_const'
  · exact List.map_const'

theorem SameWarned.map_counter_eq (hg : g₁.SameWarned g₂) (ha : a₁.SameObjects a₂) :
    (g₁.events a₁).map AlarmEvent.counter = (g₂.events a₂).map AlarmEvent.counter := by
  have hchanges := congrArg List.length (hg.levelChanges_told ha)
  rw [List.length_map, List.length_map] at hchanges
  rw [map_counter_events, map_counter_events, hchanges, (hg.warnOnsets_perm ha).length_eq]

end AlarmGate

theorem Counters.countEvents_eq_foldl_map (c : Counters) (events : List AlarmEvent) :
    c.countEvents events =
      (events.map AlarmEvent.counter).foldl (fun c name => c.add name 1) c := by
  rw [countEvents, List.foldl_map]

/-! ## The pipeline -/

/-- Two frames differ only in the order of their detections, and each tracked object has its own
detections in the same order on both. -/
structure Frame.Rearranges (f₁ f₂ : Frame) : Prop where
  size : f₁.size = f₂.size
  timestamp : f₁.timestamp = f₂.timestamp
  detections : f₁.detections.Perm f₂.detections
  objects : ∀ name id, f₁.detections.filter (fun d => d.Shows name id) =
    f₂.detections.filter fun d => d.Shows name id

/-- Two pipelines differ only in their queues and in the order of what they hold. -/
structure Pipeline.SameState (p₁ p₂ : Pipeline) : Prop where
  engine : p₁.engine.SameTracks p₂.engine
  fpsSource : p₁.fpsSource = p₂.fpsSource
  frameRate : p₁.frameRate = p₂.frameRate
  alarms : p₁.alarms.SameWarned p₂.alarms
  counters : p₁.counters = p₂.counters
  nextFrame : p₁.nextFrame = p₂.nextFrame
  lastReaped : p₁.lastReaped = p₂.lastReaped

/-- Two frames of two runs tell the same, apart from its order. -/
structure TellSameUpToOrder (taken₁ taken₂ : PipelineStep) : Prop where
  objects : taken₁.outcome.assessment.objects.Perm taken₂.outcome.assessment.objects
  level : taken₁.outcome.assessment.level = taken₂.outcome.assessment.level
  topScore : taken₁.outcome.assessment.topObject?.map (·.metrics.score) =
    taken₂.outcome.assessment.topObject?.map (·.metrics.score)
  levelChanges : (levelChanges taken₁.outcome.events).map LevelChange.told =
    (levelChanges taken₂.outcome.events).map LevelChange.told
  warnOnsets : (warnOnsets taken₁.outcome.events).Perm (warnOnsets taken₂.outcome.events)
  counters : taken₁.pipeline.counters = taken₂.pipeline.counters
  currentLevel : taken₁.pipeline.currentLevel = taken₂.pipeline.currentLevel
  tracks : ∀ key, taken₁.pipeline.engine.tracks.get? key = taken₂.pipeline.engine.tracks.get? key
  activeTracks : taken₁.pipeline.engine.tracks.size = taken₂.pipeline.engine.tracks.size

namespace Pipeline

variable {p p₁ p₂ : Pipeline} {f₁ f₂ : Frame}

theorem SameState.rateAfter_eq (hp : p₁.SameState p₂) (hframes : f₁.Rearranges f₂) :
    p₁.rateAfter f₁.timestamp = p₂.rateAfter f₂.timestamp := by
  unfold rateAfter
  rw [hp.fpsSource, hp.frameRate, hframes.timestamp]

theorem SameState.engineFrame_rearranges (hp : p₁.SameState p₂) (hframes : f₁.Rearranges f₂) :
    (p₁.engineFrame f₁).Rearranges (p₂.engineFrame f₂) where
  context := by
    have hfps (rate : FrameRate) : p₁.fpsOf rate = p₂.fpsOf rate := by
      unfold fpsOf
      rw [hp.fpsSource]
    rw [engineFrame, engineFrame, hp.rateAfter_eq hframes, hfps, hp.nextFrame, hframes.size]
  detections := hframes.detections
  objects := hframes.objects

theorem SameState.sameObjects (hp : p₁.SameState p₂) (hframes : f₁.Rearranges f₂) :
    (p₁.step f₁).outcome.assessment.SameObjects (p₂.step f₂).outcome.assessment where
  frame := hp.nextFrame
  objects := by
    have hobjects (p : Pipeline) (f : Frame) : (p.step f).outcome.assessment.objects =
        (p.engine.step (p.engineFrame f)).report.sightings.map Sighting.object := by
      rw [step_objects, step_report]
      rfl
    rw [hobjects, hobjects]
    exact hp.engine.objects_perm (hp.engineFrame_rearranges hframes)

theorem step_alarms (p : Pipeline) (f : Frame) :
    (p.step f).pipeline.alarms = p.alarms.next (p.step f).outcome.assessment := rfl

theorem step_events (p : Pipeline) (f : Frame) :
    (p.step f).outcome.events = p.alarms.events (p.step f).outcome.assessment := rfl

theorem SameState.engine_step (hp : p₁.SameState p₂) (hframes : f₁.Rearranges f₂) :
    (p₁.step f₁).pipeline.engine.SameTracks (p₂.step f₂).pipeline.engine := by
  rw [step_engine, step_engine]
  exact hp.engine.step (hp.engineFrame_rearranges hframes)

theorem SameState.counters_step (hp : p₁.SameState p₂) (hframes : f₁.Rearranges f₂) :
    (p₁.step f₁).pipeline.counters = (p₂.step f₂).pipeline.counters := by
  have hobjects := hp.sameObjects hframes
  have hengine := hp.engine_step hframes
  have hevents : (p₁.step f₁).outcome.events.map AlarmEvent.counter =
      (p₂.step f₂).outcome.events.map AlarmEvent.counter := by
    rw [step_events, step_events]
    exact hp.alarms.map_counter_eq hobjects
  rw [step_counters, step_counters, Counters.countEvents_eq_foldl_map,
    Counters.countEvents_eq_foldl_map, hp.counters, hevents,
    FrameAssessment.level_eq_of_perm hobjects.objects, hframes.detections.length_eq,
    hengine.reapedTotal, hp.lastReaped, TrackMap.size_eq_of_get?_eq hengine.get?_eq]

theorem SameState.step (hp : p₁.SameState p₂) (hframes : f₁.Rearranges f₂) :
    (p₁.step f₁).pipeline.SameState (p₂.step f₂).pipeline where
  engine := hp.engine_step hframes
  fpsSource := hp.fpsSource
  frameRate := by
    rw [step_frameRate, step_frameRate, hp.rateAfter_eq hframes]
  alarms := by
    rw [step_alarms, step_alarms]
    exact hp.alarms.next (hp.sameObjects hframes)
  counters := hp.counters_step hframes
  nextFrame := congrArg (· + 1) hp.nextFrame
  lastReaped := (hp.engine_step hframes).reapedTotal

theorem SameState.tellSame (hp : p₁.SameState p₂) (hframes : f₁.Rearranges f₂)
    (hs : p₁.engine.settings.Admissible) :
    TellSameUpToOrder (p₁.step f₁) (p₂.step f₂) where
  objects := (hp.sameObjects hframes).objects
  level := FrameAssessment.level_eq_of_perm (hp.sameObjects hframes).objects
  topScore := by
    apply FrameAssessment.topScore_eq_of_perm (hp.sameObjects hframes).objects
    intro o ho
    rw [step_objects, step_report] at ho
    obtain ⟨s, hmem, rfl⟩ := List.mem_map.mp ho
    exact RiskEngine.step_scores_hasPlusSign hs _ s hmem
  levelChanges := hp.alarms.levelChanges_told (hp.sameObjects hframes)
  warnOnsets := hp.alarms.warnOnsets_perm (hp.sameObjects hframes)
  counters := hp.counters_step hframes
  currentLevel := (hp.step hframes).alarms.level
  tracks := (hp.engine_step hframes).get?_eq
  activeTracks := TrackMap.size_eq_of_get?_eq (hp.engine_step hframes).get?_eq

theorem SameState.run (hp : p₁.SameState p₂) (hs : p₁.engine.settings.Admissible)
    {frames₁ frames₂ : List Frame} (hframes : List.Forall₂ Frame.Rearranges frames₁ frames₂) :
    List.Forall₂ TellSameUpToOrder (p₁.run frames₁) (p₂.run frames₂) := by
  induction hframes generalizing p₁ p₂ with
  | nil => exact .nil
  | cons hfirst _ ih => exact .cons (hp.tellSame hfirst hs) (ih (hp.step hfirst) hs)

theorem sameState_new (settings : RiskSettings) (fpsSource : FpsSource)
    (capacity₁ capacity₂ : Nat) :
    (new settings fpsSource capacity₁).SameState (new settings fpsSource capacity₂) where
  engine := ⟨rfl, rfl, TrackMap.allTracked_empty, TrackMap.allTracked_empty, fun _ => rfl⟩
  fpsSource := rfl
  frameRate := rfl
  alarms := ⟨rfl, .refl _⟩
  counters := rfl
  nextFrame := rfl
  lastReaped := rfl

/-- Rearranging the detections of different objects on their frames changes nothing but the order
in which a pipeline tells what it tells. -/
theorem run_of_rearranged_frames
    {fpsSource : FpsSource} {capacity₁ capacity₂ : Nat} {p₁ p₂ : Pipeline}
    (hnew₁ : ofSettings settings fpsSource capacity₁ = .ok p₁)
    (hnew₂ : ofSettings settings fpsSource capacity₂ = .ok p₂)
    {frames₁ frames₂ : List Frame} (hframes : List.Forall₂ Frame.Rearranges frames₁ frames₂) :
    List.Forall₂ TellSameUpToOrder (p₁.run frames₁) (p₂.run frames₂) := by
  obtain ⟨hcheck, rfl⟩ := ofSettings_eq_ok_iff.mp hnew₁
  obtain ⟨-, rfl⟩ := ofSettings_eq_ok_iff.mp hnew₂
  have hs : settings.Admissible := RiskSettings.check_eq_ok_iff.mp hcheck
  exact (sameState_new settings fpsSource capacity₁ capacity₂).run hs hframes

/-- A person is shown twice, with a stranger and a cart of the same number before, between or behind
the two boxes. -/
theorem run_of_rearranged_frames_crowd :
    let near : Detection := ⟨1, 0, "Person", 1, ⟨260, 100, 380, 400⟩⟩
    let far : Detection := ⟨1, 0, "Person", 1, ⟨20, 100, 60, 160⟩⟩
    let cart : Detection := ⟨1, 1, "Cart", 1, ⟨250, 90, 390, 420⟩⟩
    let stranger : Detection := ⟨-1, 0, "Person", 1, ⟨260, 100, 380, 400⟩⟩
    let frames₁ : List Frame := [⟨⟨640, 480⟩, some 0, [near, stranger, cart, far]⟩]
    let frames₂ : List Frame := [⟨⟨640, 480⟩, some 0, [cart, near, far, stranger]⟩]
    ofSettings .default .timestamps 1 = .ok (new .default .timestamps 1) ∧
      ofSettings .default .timestamps 16 = .ok (new .default .timestamps 16) ∧
      List.Forall₂ Frame.Rearranges frames₁ frames₂ ∧
      List.Forall₂ TellSameUpToOrder ((new .default .timestamps 1).run frames₁)
        ((new .default .timestamps 16).run frames₂) := by
  intro near far cart stranger frames₁ frames₂
  have hnew (capacity : Nat) := ofSettings_default .timestamps capacity
  have hperm : [near, stranger, cart, far].Perm [cart, near, far, stranger] := by
    refine (List.Perm.cons near (.swap cart stranger [far])).trans ?_
    refine (List.Perm.swap cart near [stranger, far]).trans ?_
    exact .cons cart (.cons near (.swap far stranger []))
  have hobjects (name : String) (id : Int) :
      [near, stranger, cart, far].filter (fun d => d.Shows name id) =
        [cart, near, far, stranger].filter fun d => d.Shows name id := by
    have hstranger : ¬stranger.Shows name id := fun hshows => absurd hshows.1 (by decide)
    by_cases hcart : cart.Shows name id
    · have hperson : name ≠ "Person" := by
        rw [← hcart.2.1]
        decide
      have hnear : ¬near.Shows name id := fun hshows => hperson hshows.2.1.symm
      have hfar : ¬far.Shows name id := fun hshows => hperson hshows.2.1.symm
      simp [hstranger, hcart, hnear, hfar]
    · simp [List.filter_cons, hstranger, hcart]
  have hframes : List.Forall₂ Frame.Rearranges frames₁ frames₂ :=
    .cons ⟨rfl, rfl, hperm, hobjects⟩ .nil
  exact ⟨hnew 1, hnew 16, hframes, run_of_rearranged_frames (hnew 1) (hnew 16) hframes⟩

end Pipeline

end ObstacleWatch
