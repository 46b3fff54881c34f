import Mathlib.Data.List.Basic
import ObstacleWatch.Proofs.LatestEntries
import ObstacleWatch.Proofs.PipelineRun

/-!
# Draining on any schedule

Whoever listens to a pipeline takes the pending events when it likes: after each frame, after many,
or never.  A schedule is a list of frames and drains in any order.  What a drain gives is decided by
the events since the drain before it and by the capacity of the queue, and nothing else of the
pipeline depends on either: apart from its queue, a pipeline on a schedule is the pipeline that runs
through the frames of the schedule without being drained.
-/

namespace ObstacleWatch

inductive PipelineAction where
  | process (frame : Frame)
  | drain

namespace PipelineAction

def frame? : PipelineAction → Option Frame
  | process frame => some frame
  | drain => none

end PipelineAction

def scheduledFrames (actions : List PipelineAction) : List Frame :=
  actions.filterMap PipelineAction.frame?

theorem scheduledFrames_concat (actions : List PipelineAction) (action : PipelineAction) :
    scheduledFrames (actions ++ [action]) = scheduledFrames actions ++ action.frame?.toList := by
  rw [scheduledFrames, List.filterMap_append, List.filterMap_cons]
  cases action <;> rfl

inductive ActionOutcome where
  | processed (outcome : FrameOutcome)
  | drained (batch : List AlarmEvent)

namespace ActionOutcome

def processed? : ActionOutcome → Option FrameOutcome
  | processed outcome => some outcome
  | drained _ => none

def emitted : ActionOutcome → List AlarmEvent
  | processed outcome => outcome.events
  | drained _ => []

def taken : ActionOutcome → List AlarmEvent
  | processed _ => []
  | drained batch => batch

end ActionOutcome

def emittedEvents (outcomes : List ActionOutcome) : List AlarmEvent :=
  outcomes.flatMap (·.emitted)

def drainedEvents (outcomes : List ActionOutcome) : List AlarmEvent :=
  outcomes.flatMap (·.taken)

/-- The events that were raised after the last drain. -/
def eventsSinceDrain (outcomes : List ActionOutcome) : List AlarmEvent :=
  emittedEvents (outcomes.rtakeWhile (·.processed?.isSome))

def scheduledAssessments (outcomes : List ActionOutcome) : List FrameAssessment :=
  (outcomes.filterMap ActionOutcome.processed?).map (·.assessment)

section

variable (outcomes : List ActionOutcome) (outcome : FrameOutcome) (batch : List AlarmEvent)

theorem emittedEvents_concat (o : ActionOutcome) :
    emittedEvents (outcomes ++ [o]) = emittedEvents outcomes ++ o.emitted := by
  simp [emittedEvents]

theorem drainedEvents_concat (o : ActionOutcome) :
    drainedEvents (outcomes ++ [o]) = drainedEvents outcomes ++ o.taken := by
  simp [drainedEvents]

@[simp] theorem eventsSinceDrain_processed :
    eventsSinceDrain (outcomes ++ [.processed outcome]) =
      eventsSinceDrain outcomes ++ outcome.events := by
  rw [eventsSinceDrain, List.rtakeWhile_concat_pos _ _ _ rfl, emittedEvents_concat]
  rfl

@[simp] theorem eventsSinceDrain_drained :
    eventsSinceDrain (outcomes ++ [.drained batch]) = [] := by
  rw [eventsSinceDrain, List.rtakeWhile_concat_neg _ _ _ (by simp [ActionOutcome.processed?])]
  rfl

end

structure ActionStep where
  pipeline : Pipeline
  outcome : ActionOutcome

namespace Pipeline

def act (p : Pipeline) : PipelineAction → ActionStep
  | .process frame =>
      let (next, outcome) := p.process frame
      ⟨next, .processed outcome⟩
  | .drain =>
      let (next, batch) := p.drainEvents
      ⟨next, .drained batch⟩

def outcomes (p : Pipeline) (actions : List PipelineAction) : List ActionOutcome :=
  (runSteps act ActionStep.pipeline p actions).map (·.outcome)

def afterSchedule : Pipeline → List PipelineAction → Pipeline :=
  stateAfter act ActionStep.pipeline

variable (p : Pipeline) (actions : List PipelineAction) (action : PipelineAction)

theorem afterSchedule_concat :
    p.afterSchedule (actions ++ [action]) = ((p.afterSchedule actions).act action).pipeline :=
  stateAfter_concat act ActionStep.pipeline p actions action

theorem outcomes_concat :
    p.outcomes (actions ++ [action]) =
      p.outcomes actions ++ [((p.afterSchedule actions).act action).outcome] := by
  rw [outcomes, runSteps_concat, List.map_append]
  rfl

theorem getElem?_outcomes (n : Nat) :
    (p.outcomes actions)[n]? =
      actions[n]?.map fun action => ((p.afterSchedule (actions.take n)).act action).outcome := by
  rw [outcomes, List.getElem?_map, getElem?_runSteps, Option.map_map]
  rfl

theorem take_outcomes (n : Nat) : (p.outcomes actions).take n = p.outcomes (actions.take n) := by
  rw [outcomes, ← List.map_take, take_runSteps]
  rfl

/-! ## The account of the queue -/

/-- How the queue of a pipeline stands to the outcomes of a schedule. -/
structure QueueAccount (p : Pipeline) (capacity : Nat) (outcomes : List ActionOutcome) : Prop where
  capacity_eq : p.queue.capacity = max capacity 1
  holds : p.queue.HoldsLatest (eventsSinceDrain outcomes)
  balance : (emittedEvents outcomes).length =
    (drainedEvents outcomes).length + p.queue.dropped + p.queue.pending.length

variable {p : Pipeline} {capacity : Nat} {past : List ActionOutcome}

theorem QueueAccount.process (hp : p.QueueAccount capacity past) (frame : Frame) :
    (p.process frame).1.QueueAccount capacity (past ++ [.processed (p.process frame).2]) := by
  have hqueue : (p.process frame).1.queue = p.queue.publishAll (p.process frame).2.events := rfl
  refine ⟨?_, ?_, ?_⟩
  · rw [hqueue, BoundedQueue.capacity_publishAll, hp.capacity_eq]
  · rw [hqueue, eventsSinceDrain_processed]
    exact hp.holds.publishAll _
  · have hbalance := hp.balance
    have hpublished := hp.holds.publishAll_balance (p.process frame).2.events
    rw [hqueue, emittedEvents_concat, drainedEvents_concat, List.length_append,
      List.length_append]
    simp only [ActionOutcome.emitted, ActionOutcome.taken, List.length_nil]
    omega

theorem QueueAccount.drain (hp : p.QueueAccount capacity past) :
    p.drainEvents.1.QueueAccount capacity (past ++ [.drained p.drainEvents.2]) := by
  refine ⟨hp.capacity_eq, ?_, ?_⟩
  · rw [eventsSinceDrain_drained]
    exact hp.holds.drain
  · have hdropped : p.drainEvents.1.queue.dropped = p.queue.dropped := rfl
    have hpending : p.drainEvents.1.queue.pending = [] := rfl
    have hbatch : p.drainEvents.2 = p.queue.pending := rfl
    have hbalance := hp.balance
    rw [emittedEvents_concat, drainedEvents_concat, List.length_append, List.length_append,
      hdropped, hpending]
    simp only [ActionOutcome.emitted, ActionOutcome.taken, List.length_nil, hbatch]
    omega

theorem queueAccount_new (settings : RiskSettings) (fpsSource : FpsSource) (capacity : Nat) :
    (new settings fpsSource capacity).QueueAccount capacity [] :=
  ⟨rfl, .ofCapacity capacity, rfl⟩

theorem QueueAccount.afterSchedule
    (hp : p.QueueAccount capacity []) (actions : List PipelineAction) :
    (p.afterSchedule actions).QueueAccount capacity (p.outcomes actions) := by
  induction actions using List.reverseRecOn with
  | nil => exact hp
  | append_singleton actions action ih =>
      rw [afterSchedule_concat, outcomes_concat]
      cases action with
      | process frame => exact ih.process frame
      | drain => exact ih.drain

/-! ## The rest of the pipeline -/

/-- The pipelines differ in their queues at most. -/
def AlikeButQueue (p₁ p₂ : Pipeline) : Prop :=
  p₁ = { p₂ with queue := p₁.queue }

/-- What a frame tells apart from the log records, which mention a full queue. -/
def told (outcome : FrameOutcome) : FrameAssessment × EngineReport × List AlarmEvent :=
  (outcome.assessment, outcome.report, outcome.events)

theorem AlikeButQueue.refl (p : Pipeline) : p.AlikeButQueue p := rfl

theorem new_alikeButQueue (settings : RiskSettings) (fpsSource : FpsSource)
    (capacity₁ capacity₂ : Nat) :
    (new settings fpsSource capacity₁).AlikeButQueue (new settings fpsSource capacity₂) := rfl

theorem AlikeButQueue.process {p₁ p₂ : Pipeline} (halike : p₁.AlikeButQueue p₂) (frame : Frame) :
    (p₁.process frame).1.AlikeButQueue (p₂.process frame).1 ∧
      told (p₁.process frame).2 = told (p₂.process frame).2 := by
  rw [AlikeButQueue] at halike
  rw [halike]
  exact ⟨rfl, rfl⟩

theorem AlikeButQueue.drain {p₁ p₂ : Pipeline} (halike : p₁.AlikeButQueue p₂) :
    p₁.drainEvents.1.AlikeButQueue p₂ := by
  rw [AlikeButQueue] at halike
  rw [halike]
  rfl

theorem alike_afterSchedule {p₁ p₂ : Pipeline} (halike : p₁.AlikeButQueue p₂)
    (actions : List PipelineAction) :
    (p₁.afterSchedule actions).AlikeButQueue (p₂.after (scheduledFrames actions)) ∧
      ((p₁.outcomes actions).filterMap ActionOutcome.processed?).map told =
        (p₂.run (scheduledFrames actions)).map (told ·.outcome) := by
  induction actions using List.reverseRecOn with
  | nil => exact ⟨halike, rfl⟩
  | append_singleton actions action ih =>
      obtain ⟨hstate, htold⟩ := ih
      rw [afterSchedule_concat, outcomes_concat, scheduledFrames_concat, List.filterMap_append,
        List.map_append, htold]
      cases action with
      | process frame =>
          obtain ⟨hnext, hsame⟩ := hstate.process frame
          refine ⟨?_, ?_⟩
          · rw [PipelineAction.frame?, Option.toList_some, after_concat]
            exact hnext
          · rw [PipelineAction.frame?, Option.toList_some, run_concat, List.map_append]
            exact congrArg (_ ++ [·]) hsame
      | drain =>
          rw [PipelineAction.frame?, Option.toList_none, List.append_nil]
          exact ⟨hstate.drain, List.append_nil _⟩

/-- Two pipelines on two schedules reported the same and stand alike. -/
structure SameBeyondQueue (p₁ p₂ : Pipeline) (actions₁ actions₂ : List PipelineAction) : Prop where
  assessments : scheduledAssessments (p₁.outcomes actions₁) =
    scheduledAssessments (p₂.outcomes actions₂)
  counters : (p₁.afterSchedule actions₁).counters = (p₂.afterSchedule actions₂).counters
  currentLevel : (p₁.afterSchedule actions₁).currentLevel =
    (p₂.afterSchedule actions₂).currentLevel
  engine : (p₁.afterSchedule actions₁).engine = (p₂.afterSchedule actions₂).engine

/-- What a queue of some capacity makes of the events of a pipeline on a schedule. -/
structure DeliversLatest (settings : RiskSettings) (fpsSource : FpsSource) (capacity : Nat)
    (p : Pipeline) (actions : List PipelineAction) : Prop where
  emitted_eq : emittedEvents (p.outcomes actions) =
    (AlarmGate.initial.run (scheduledAssessments (p.outcomes actions))).flatMap (·.events)
  batch_eq : ∀ n batch, (p.outcomes actions)[n]? = some (.drained batch) →
    batch = (eventsSinceDrain ((p.outcomes actions).take n)).rtake (max capacity 1)
  pending_le : (p.afterSchedule actions).queue.pending.length ≤ max capacity 1
  balance : (emittedEvents (p.outcomes actions)).length =
    (drainedEvents (p.outcomes actions)).length + (p.afterSchedule actions).queue.dropped +
      (p.afterSchedule actions).queue.pending.length
  independent : ∀ otherCapacity other otherActions,
    ofSettings settings fpsSource otherCapacity = .ok other →
      scheduledFrames otherActions = scheduledFrames actions →
        other.SameBeyondQueue p otherActions actions

section

variable {settings : RiskSettings} {fpsSource : FpsSource} {capacity : Nat}

theorem scheduledAssessments_eq_map_told (outcomes : List ActionOutcome) :
    scheduledAssessments outcomes =
      ((outcomes.filterMap ActionOutcome.processed?).map told).map Prod.fst := by
  rw [List.map_map]
  rfl

theorem scheduledAssessments_outcomes (p : Pipeline) (actions : List PipelineAction) :
    scheduledAssessments (p.outcomes actions) = p.assessments (scheduledFrames actions) := by
  have htold := (alike_afterSchedule (.refl p) actions).2
  rw [scheduledAssessments_eq_map_told, htold, List.map_map]
  rfl

theorem emittedEvents_eq_flatten (outcomes : List ActionOutcome) :
    emittedEvents outcomes =
      (((outcomes.filterMap ActionOutcome.processed?).map told).map (·.2.2)).flatten := by
  induction outcomes with
  | nil => rfl
  | cons o rest ih =>
      rw [emittedEvents, List.flatMap_cons, ← emittedEvents, ih]
      cases o <;> rfl

theorem emittedEvents_outcomes (p : Pipeline) (actions : List PipelineAction) :
    emittedEvents (p.outcomes actions) =
      (p.alarms.run (scheduledAssessments (p.outcomes actions))).flatMap (·.events) := by
  have htold := (alike_afterSchedule (.refl p) actions).2
  rw [emittedEvents_eq_flatten, htold, List.map_map, scheduledAssessments_outcomes,
    List.flatMap_def, ← events_eq_run_alarms]
  rfl

theorem sameBeyondQueue_of_scheduledFrames_eq {p₁ p₂ : Pipeline} (halike : p₁.AlikeButQueue p₂)
    {actions₁ actions₂ : List PipelineAction}
    (hframes : scheduledFrames actions₁ = scheduledFrames actions₂) :
    p₁.SameBeyondQueue p₂ actions₁ actions₂ := by
  obtain ⟨hstate₁, htold₁⟩ := alike_afterSchedule halike actions₁
  obtain ⟨hstate₂, htold₂⟩ := alike_afterSchedule (.refl p₂) actions₂
  rw [hframes] at hstate₁ htold₁
  rw [AlikeButQueue] at hstate₁ hstate₂
  have hassessments : scheduledAssessments (p₁.outcomes actions₁) =
      scheduledAssessments (p₂.outcomes actions₂) := by
    rw [scheduledAssessments_eq_map_told, scheduledAssessments_eq_map_told, htold₁, htold₂]
  exact ⟨hassessments, by rw [hstate₁, hstate₂], by rw [hstate₁, hstate₂]; rfl,
    by rw [hstate₁, hstate₂]⟩

/-- Every drain gives the latest events since the drain before it, as many as the queue has room
for; no event is lost from the account; and neither drains nor capacity are felt elsewhere. -/
theorem delivers_latest_events
    {p : Pipeline} (hp : ofSettings settings fpsSource capacity = .ok p)
    (actions : List PipelineAction) :
    p.DeliversLatest settings fpsSource capacity actions := by
  obtain ⟨-, rfl⟩ := ofSettings_eq_ok_iff.mp hp
  have haccount (actions : List PipelineAction) :=
    (queueAccount_new settings fpsSource capacity).afterSchedule actions
  refine ⟨emittedEvents_outcomes _ actions, ?_, ?_, (haccount actions).balance, ?_⟩
  · intro n batch hbatch
    rw [getElem?_outcomes, Option.map_eq_some_iff] at hbatch
    obtain ⟨action, -, hact⟩ := hbatch
    cases action with
    | process frame => cases hact
    | drain =>
        have hpast := haccount (actions.take n)
        rw [take_outcomes, ← hpast.capacity_eq, ← hpast.holds.pending_eq]
        cases hact
        rfl
  · have hnow := haccount actions
    rw [hnow.holds.length_pending, hnow.capacity_eq]
    exact Nat.min_le_left _ _
  · intro otherCapacity other otherActions hother hframes
    obtain ⟨-, rfl⟩ := ofSettings_eq_ok_iff.mp hother
    exact sameBeyondQueue_of_scheduledFrames_eq
      (new_alikeButQueue settings fpsSource otherCapacity capacity) hframes

/-- Two persons become a warning on one frame, which makes three events; of these a queue for two
keeps the onsets.  The second drain finds nothing new. -/
theorem delivers_latest_events_two_persons :
    let frame : Frame := ⟨⟨640, 480⟩, none,
      [⟨1, 0, "Person", 1, ⟨260, 100, 380, 400⟩⟩, ⟨2, 0, "Person", 1, ⟨270, 100, 390, 400⟩⟩]⟩
    let p := new .default (.constant 30) 2
    let actions : List PipelineAction := [.process frame, .drain, .process frame, .drain]
    ofSettings .default (.constant 30) 2 = .ok p ∧
      (drainedEvents (p.outcomes actions)).length = 2 ∧
      (p.afterSchedule actions).queue.dropped = 1 ∧
      p.DeliversLatest .default (.constant 30) 2 actions := by
  intro frame p actions
  have hp : ofSettings .default (.constant 30) 2 = .ok p := ofSettings_default _ _
  exact ⟨hp, by decide +kernel, by decide +kernel, delivers_latest_events hp actions⟩

end

end Pipeline

end ObstacleWatch
