import ObstacleWatch.Alarm
import ObstacleWatch.Proofs.StepRun

/-!
# Runs of the alarm gate

A run feeds assessments to the gate one after the other.  Whatever came before, the gate remembers
no more than the last frame: its level, and the tracked objects that were warnings on it.
-/

namespace ObstacleWatch

/-- One frame of a run of the gate. -/
structure AlarmStep where
  assessment : FrameAssessment
  /-- The gate after the frame. -/
  gate : AlarmGate
  events : List AlarmEvent

/-! ## The events of a frame by kind -/

namespace AlarmEvent

def change? : AlarmEvent → Option LevelChange
  | levelChanged c => some c
  | warnOnset _ => none

def onset? : AlarmEvent → Option WarnOnset
  | levelChanged _ => none
  | warnOnset w => some w

end AlarmEvent

/-- The level changes among some events. -/
def levelChanges (events : List AlarmEvent) : List LevelChange :=
  events.filterMap AlarmEvent.change?

/-- The warning onsets among some events. -/
def warnOnsets (events : List AlarmEvent) : List WarnOnset :=
  events.filterMap AlarmEvent.onset?

theorem levelChanges_append (before after : List AlarmEvent) :
    levelChanges (before ++ after) = levelChanges before ++ levelChanges after :=
  List.filterMap_append

theorem warnOnsets_append (before after : List AlarmEvent) :
    warnOnsets (before ++ after) = warnOnsets before ++ warnOnsets after :=
  List.filterMap_append

@[simp] theorem levelChanges_map_levelChanged (changes : List LevelChange) :
    levelChanges (changes.map .levelChanged) = changes := by
  induction changes with
  | nil => rfl
  | cons c rest ih => exact congrArg (c :: ·) ih

@[simp] theorem levelChanges_map_warnOnset (onsets : List WarnOnset) :
    levelChanges (onsets.map .warnOnset) = [] := by
  induction onsets with
  | nil => rfl
  | cons w rest ih => exact ih

@[simp] theorem warnOnsets_map_levelChanged (changes : List LevelChange) :
    warnOnsets (changes.map .levelChanged) = [] := by
  induction changes with
  | nil => rfl
  | cons c rest ih => exact ih

@[simp] theorem warnOnsets_map_warnOnset (onsets : List WarnOnset) :
    warnOnsets (onsets.map .warnOnset) = onsets := by
  induction onsets with
  | nil => rfl
  | cons w rest ih => exact congrArg (w :: ·) ih

namespace AlarmGate

@[simp] theorem levelChanges_events (g : AlarmGate) (a : FrameAssessment) :
    levelChanges (g.events a) = (g.levelChange? a).toList := by
  rw [events, levelChanges_append, levelChanges_map_levelChanged, levelChanges_map_warnOnset,
    List.append_nil]

@[simp] theorem warnOnsets_events (g : AlarmGate) (a : FrameAssessment) :
    warnOnsets (g.events a) = g.onsets a := by
  rw [events, warnOnsets_append, warnOnsets_map_levelChanged, warnOnsets_map_warnOnset,
    List.nil_append]

/-! ## Runs -/

def step (g : AlarmGate) (a : FrameAssessment) : AlarmStep :=
  let (next, events) := g.observe a
  ⟨a, next, events⟩

def run : AlarmGate → List FrameAssessment → List AlarmStep :=
  runSteps step AlarmStep.gate

/-- The gate after some frames. -/
def after : AlarmGate → List FrameAssessment → AlarmGate :=
  stateAfter step AlarmStep.gate

theorem run_concat (g : AlarmGate) (past : List FrameAssessment) (a : FrameAssessment) :
    g.run (past ++ [a]) = g.run past ++ [(g.after past).step a] :=
  runSteps_concat step AlarmStep.gate g past a

theorem exists_assessment_of_getElem?_run
    {g : AlarmGate} {assessments : List FrameAssessment} {n : Nat} {taken : AlarmStep}
    (htaken : (g.run assessments)[n]? = some taken) : ∃ a, assessments[n]? = some a := by
  rw [run, getElem?_runSteps, Option.map_eq_some_iff] at htaken
  obtain ⟨a, ha, -⟩ := htaken
  exact ⟨a, ha⟩

/-- What the gate knows when a frame, or none, came before. -/
def remembering : Option FrameAssessment → AlarmGate
  | none => .initial
  | some a => ⟨a.level, warnedKeys a⟩

theorem after_eq_remembering (past : List FrameAssessment) :
    initial.after past = remembering past.getLast? := by
  rcases List.eq_nil_or_concat' past with rfl | ⟨earlier, last, rfl⟩
  · rfl
  · rw [after, stateAfter_concat, List.getLast?_concat]
    rfl

end AlarmGate

/-- The frame before a place of a sequence; there is none before the first. -/
def frameBefore? (assessments : List FrameAssessment) (n : Nat) : Option FrameAssessment :=
  if n = 0 then none else assessments[n - 1]?

theorem getLast?_take_eq_frameBefore?
    {assessments : List FrameAssessment} {n : Nat} (hn : n ≤ assessments.length) :
    (assessments.take n).getLast? = frameBefore? assessments n := by
  rw [List.getLast?_take, frameBefore?]
  split
  · rfl
  · have hlt : n - 1 < assessments.length := by omega
    rw [List.getElem?_eq_getElem hlt, Option.some_or]

theorem AlarmGate.getElem?_run_initial
    {assessments : List FrameAssessment} {n : Nat} {a : FrameAssessment}
    (ha : assessments[n]? = some a) :
    (initial.run assessments)[n]? =
      some ((remembering (frameBefore? assessments n)).step a) := by
  obtain ⟨hlt, -⟩ := List.getElem?_eq_some_iff.mp ha
  have hgate := after_eq_remembering (assessments.take n)
  rw [getLast?_take_eq_frameBefore? (Nat.le_of_lt hlt)] at hgate
  rw [run, getElem?_runSteps, ha, Option.map_some, ← hgate]
  rfl

end ObstacleWatch
