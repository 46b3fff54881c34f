import Mathlib.Data.List.Chain
import ObstacleWatch.Proofs.PipelineRun

/-!
# The chain of level changes

A level change starts from the level the gate remembers, which is the level of the last frame.  So
the level changes of a run hang together: the first one starts from safe, each later one starts from
where the one before it went, and the level of every frame can be read back from the changes up to
it.
-/

namespace ObstacleWatch

/-! ## Reading levels from changes -/

/-- The level that some level changes end at. -/
def levelAfter (changes : List LevelChange) : DangerLevel :=
  changes.foldl (fun _ c => c.after) .safe

/-- The level on a frame by the level changes up to it. -/
def levelAt (changes : List LevelChange) (frame : Nat) : DangerLevel :=
  levelAfter (changes.filter fun c => c.frame ≤ frame)

@[simp] theorem levelAfter_nil : levelAfter [] = .safe := rfl

@[simp] theorem levelAfter_concat (changes : List LevelChange) (c : LevelChange) :
    levelAfter (changes ++ [c]) = c.after := by
  simp [levelAfter]

theorem levelAfter_of_getLast? {changes : List LevelChange} {c : LevelChange}
    (hlast : c ∈ changes.getLast?) : levelAfter changes = c.after := by
  rcases List.eq_nil_or_concat' changes with rfl | ⟨earlier, last, rfl⟩
  · contradiction
  · rw [List.getLast?_concat] at hlast
    obtain rfl := Option.some.inj hlast
    exact levelAfter_concat earlier last

theorem levelAt_append_of_lt {changes later : List LevelChange} {frame : Nat}
    (hlater : ∀ c ∈ later, frame < c.frame) :
    levelAt (changes ++ later) frame = levelAt changes frame := by
  have hnone : later.filter (fun c => c.frame ≤ frame) = [] := by
    rw [List.filter_eq_nil_iff]
    intro c hc
    have hlt := hlater c hc
    simpa using hlt
  rw [levelAt, List.filter_append, hnone, List.append_nil, levelAt]

theorem levelAt_of_forall_le {changes : List LevelChange} {frame : Nat}
    (hle : ∀ c ∈ changes, c.frame ≤ frame) : levelAt changes frame = levelAfter changes := by
  rw [levelAt, List.filter_eq_self.mpr]
  intro c hc
  exact decide_eq_true (hle c hc)

/-! ## The change of one frame -/

theorem FrameAssessment.level_of_topObject?_eq_none {a : FrameAssessment}
    (hnone : a.topObject? = none) : a.level = .safe := by
  rw [level, hnone]

namespace AlarmGate

variable {g : AlarmGate} {a : FrameAssessment}

theorem levelChange?_eq_none_iff : g.levelChange? a = none ↔ a.level = g.level := by
  simp [levelChange?]

theorem mem_levelChange?_iff {c : LevelChange} :
    c ∈ g.levelChange? a ↔
      a.level ≠ g.level ∧ c = ⟨a.frame, g.level, a.level, a.topObject?⟩ := by
  rw [levelChange?]
  split
  · next hsame => simp [hsame]
  · next hnew => simp [hnew, eq_comm]

end AlarmGate

/-! ## Chains -/

/-- Level changes that start from safe, follow on one another up to a level, and are all of frames
before a bound. -/
structure ChainTo (changes : List LevelChange) (level : DangerLevel) (bound : Nat) : Prop where
  moves : ∀ c ∈ changes, c.before ≠ c.after
  first : ∀ c ∈ changes.head?, c.before = .safe
  linked : changes.IsChain fun c d => c.after = d.before
  increasing : changes.Pairwise fun c d => c.frame < d.frame
  bounded : ∀ c ∈ changes, c.frame < bound
  ends : levelAfter changes = level

namespace ChainTo

variable {changes : List LevelChange} {level : DangerLevel} {frame bound : Nat}

theorem nil : ChainTo [] .safe bound where
  moves := by simp
  first := by simp
  linked := .nil
  increasing := List.Pairwise.nil
  bounded := by simp
  ends := rfl

theorem mono (hchain : ChainTo changes level frame) (hle : frame ≤ bound) :
    ChainTo changes level bound :=
  { hchain with bounded := fun c hc => Nat.lt_of_lt_of_le (hchain.bounded c hc) hle }

/-- A change on a later frame carries a chain on from the level it has come to. -/
theorem concat (hchain : ChainTo changes level frame) {c : LevelChange}
    (hframe : c.frame = frame) (hbefore : c.before = level) (hmoves : c.before ≠ c.after) :
    ChainTo (changes ++ [c]) c.after (frame + 1) where
  moves := by
    intro d hd
    rcases List.mem_append.mp hd with hd | hd
    · exact hchain.moves d hd
    · obtain rfl := List.mem_singleton.mp hd
      exact hmoves
  first := by
    intro d hd
    cases hchanges : changes with
    | nil =>
        -- A chain without changes is still at safe, so the new change is a first one.
        rw [hchanges] at hd
        obtain rfl := Option.some.inj hd
        have hends := hchain.ends
        rw [hchanges, levelAfter_nil] at hends
        rw [hbefore, hends]
    | cons e es =>
        rw [hchanges] at hd
        apply hchain.first d
        rw [hchanges]
        exact hd
  linked := by
    refine hchain.linked.append (.singleton c) ?_
    intro last hlast d hd
    obtain rfl := Option.some.inj hd
    rw [← levelAfter_of_getLast? hlast, hchain.ends, hbefore]
  increasing := by
    refine List.pairwise_append.mpr ⟨hchain.increasing, List.pairwise_singleton _ c, ?_⟩
    intro e he d hd
    obtain rfl := List.mem_singleton.mp hd
    rw [hframe]
    exact hchain.bounded e he
  bounded := by
    intro d hd
    rcases List.mem_append.mp hd with hd | hd
    · exact Nat.lt_succ_of_lt (hchain.bounded d hd)
    · obtain rfl := List.mem_singleton.mp hd
      omega
  ends := levelAfter_concat changes c

/-- A frame keeps the chain, whether or not it changes the level. -/
theorem observe {g : AlarmGate} {a : FrameAssessment}
    (hchain : ChainTo changes g.level a.frame) :
    ChainTo (changes ++ (g.levelChange? a).toList) a.level (a.frame + 1) := by
  cases hchange : g.levelChange? a with
  | none =>
      rw [AlarmGate.levelChange?_eq_none_iff.mp hchange, Option.toList_none, List.append_nil]
      exact hchain.mono (Nat.le_succ _)
  | some c =>
      obtain ⟨hnew, rfl⟩ := AlarmGate.mem_levelChange?_iff.mp hchange
      exact hchain.concat rfl rfl (Ne.symm hnew)

end ChainTo

/-! ## The changes of a run -/

/-- The frames of a sequence are numbered from zero. -/
def Numbered (assessments : List FrameAssessment) : Prop :=
  assessments.map (·.frame) = List.range assessments.length

namespace Numbered

variable {past : List FrameAssessment} {a : FrameAssessment}

theorem concat_iff : Numbered (past ++ [a]) ↔ Numbered past ∧ a.frame = past.length := by
  simp [Numbered, List.range_succ]

theorem frame_lt (hpast : Numbered past) (ha : a ∈ past) : a.frame < past.length := by
  rw [← List.mem_range, ← hpast]
  exact List.mem_map_of_mem ha

end Numbered

/-- The level changes of a run. -/
def runChanges (steps : List AlarmStep) : List LevelChange :=
  levelChanges (steps.flatMap (·.events))

namespace AlarmGate

theorem map_assessment_run (g : AlarmGate) (assessments : List FrameAssessment) :
    (g.run assessments).map (·.assessment) = assessments := by
  induction assessments using List.reverseRecOn with
  | nil => rfl
  | append_singleton past a ih =>
      rw [run_concat, List.map_append, ih]
      rfl

theorem runChanges_concat (g : AlarmGate) (past : List FrameAssessment) (a : FrameAssessment) :
    runChanges (g.run (past ++ [a])) =
      runChanges (g.run past) ++ ((g.after past).levelChange? a).toList := by
  rw [runChanges, run_concat, List.flatMap_append, levelChanges_append, List.flatMap_singleton]
  exact congrArg _ ((g.after past).levelChanges_events a)

theorem level_after_concat (g : AlarmGate) (past : List FrameAssessment) (a : FrameAssessment) :
    (g.after (past ++ [a])).level = a.level := by
  rw [after, stateAfter_concat]
  rfl

theorem chainTo_run {assessments : List FrameAssessment} (hnumbered : Numbered assessments) :
    ChainTo (runChanges (initial.run assessments)) (initial.after assessments).level
      assessments.length := by
  -- The chain grows at its end, so the induction is from there; the bound says that the next frame
  -- has a higher number than all changes so far.
  induction assessments using List.reverseRecOn with
  | nil => exact .nil
  | append_singleton past a ih =>
      obtain ⟨hpast, hframe⟩ := Numbered.concat_iff.mp hnumbered
      have hchain := ih hpast
      rw [← hframe] at hchain
      rw [runChanges_concat, level_after_concat, List.length_append, List.length_singleton,
        ← hframe]
      exact hchain.observe

/-- The changes up to a frame give its level, also when more frames have come since. -/
theorem levelAt_runChanges {assessments : List FrameAssessment} {a : FrameAssessment}
    (hnumbered : Numbered assessments) (ha : a ∈ assessments) :
    levelAt (runChanges (initial.run assessments)) a.frame = a.level := by
  induction assessments using List.reverseRecOn with
  | nil => contradiction
  | append_singleton past b ih =>
      have hchain := chainTo_run hnumbered
      obtain ⟨hpast, hframe⟩ := Numbered.concat_iff.mp hnumbered
      rcases List.mem_append.mp ha with hearlier | hlast
      · rw [runChanges_concat, levelAt_append_of_lt, ih hpast hearlier]
        intro c hc
        obtain ⟨-, rfl⟩ := mem_levelChange?_iff.mp (Option.mem_toList.mp hc)
        have hlt := hpast.frame_lt hearlier
        rw [← hframe] at hlt
        exact hlt
      · obtain rfl := List.mem_singleton.mp hlast
        rw [levelAt_of_forall_le, hchain.ends, level_after_concat]
        intro c hc
        have hlt := hchain.bounded c hc
        rw [List.length_append, List.length_singleton, ← hframe] at hlt
        exact Nat.le_of_lt_succ hlt

end AlarmGate

/-! ## What the changes tell -/

/-- The level changes of a run: each by itself, as a chain, and against the levels of the
frames. -/
structure LevelChain (steps : List AlarmStep) : Prop where
  atMostOne : ∀ taken ∈ steps, ∃ (change : Option LevelChange) (onsets : List WarnOnset),
    taken.events = change.toList.map .levelChanged ++ onsets.map .warnOnset
  moves : ∀ c ∈ runChanges steps, c.before ≠ c.after
  first : ∀ c ∈ (runChanges steps).head?, c.before = .safe
  linked : (runChanges steps).IsChain fun c d => c.after = d.before
  increasing : (runChanges steps).Pairwise fun c d => c.frame < d.frame
  shows : ∀ taken ∈ steps, ∀ c ∈ levelChanges taken.events,
    c.frame = taken.assessment.frame ∧ c.after = taken.assessment.level ∧
      c.object = taken.assessment.topObject?
  objectless : ∀ taken ∈ steps, ∀ c ∈ levelChanges taken.events, c.object = none →
    taken.assessment.objects = [] ∧ c.after = .safe
  quiet : ∀ n, ∀ taken ∈ steps[n]?, levelChanges taken.events = [] →
    taken.assessment.level =
      ((frameBefore? (steps.map (·.assessment)) n).map (·.level)).getD .safe
  replay : ∀ taken ∈ steps,
    levelAt (runChanges steps) taken.assessment.frame = taken.assessment.level

namespace AlarmGate

theorem level_remembering (before : Option FrameAssessment) :
    (remembering before).level = (before.map (·.level)).getD .safe := by
  cases before <;> rfl

theorem exists_step_of_mem_run {g : AlarmGate} {assessments : List FrameAssessment}
    {taken : AlarmStep} (htaken : taken ∈ g.run assessments) :
    ∃ (gate : AlarmGate) (a : FrameAssessment), taken = gate.step a := by
  obtain ⟨n, hn⟩ := List.mem_iff_getElem?.mp htaken
  rw [run, getElem?_runSteps, Option.map_eq_some_iff] at hn
  obtain ⟨a, -, hstep⟩ := hn
  exact ⟨_, a, hstep.symm⟩

theorem eq_of_mem_levelChanges_step {gate : AlarmGate} {a : FrameAssessment} {c : LevelChange}
    (hc : c ∈ levelChanges (gate.step a).events) :
    c = ⟨a.frame, gate.level, a.level, a.topObject?⟩ := by
  have hchange : c ∈ (gate.levelChange? a).toList := by
    rw [← levelChanges_events]
    exact hc
  exact (mem_levelChange?_iff.mp (Option.mem_toList.mp hchange)).2

theorem levelChain_run {assessments : List FrameAssessment} (hnumbered : Numbered assessments) :
    LevelChain (initial.run assessments) := by
  have hchain := chainTo_run hnumbered
  refine
    { atMostOne := ?_
      moves := hchain.moves
      first := hchain.first
      linked := hchain.linked
      increasing := hchain.increasing
      shows := ?_
      objectless := ?_
      quiet := ?_
      replay := ?_ }
  · intro taken htaken
    obtain ⟨gate, a, rfl⟩ := exists_step_of_mem_run htaken
    exact ⟨gate.levelChange? a, gate.onsets a, rfl⟩
  · intro taken htaken c hc
    obtain ⟨gate, a, rfl⟩ := exists_step_of_mem_run htaken
    obtain rfl := eq_of_mem_levelChanges_step hc
    exact ⟨rfl, rfl, rfl⟩
  · intro taken htaken c hc hnone
    obtain ⟨gate, a, rfl⟩ := exists_step_of_mem_run htaken
    obtain rfl := eq_of_mem_levelChanges_step hc
    exact ⟨FrameAssessment.topObject?_eq_none_iff.mp hnone,
      FrameAssessment.level_of_topObject?_eq_none hnone⟩
  · intro n taken htaken hquiet
    obtain ⟨a, ha⟩ := exists_assessment_of_getElem?_run htaken
    rw [getElem?_run_initial ha] at htaken
    obtain rfl := Option.some.inj htaken
    rw [map_assessment_run, ← level_remembering, ← levelChange?_eq_none_iff,
      ← Option.toList_eq_nil_iff, ← levelChanges_events]
    exact hquiet
  · intro taken htaken
    have hmem : taken.assessment ∈ assessments := by
      rw [← map_assessment_run initial assessments]
      exact List.mem_map_of_mem htaken
    exact levelAt_runChanges hnumbered hmem

end AlarmGate

/-! ## Runs of the pipeline -/

theorem Pipeline.numbered_assessments (settings : RiskSettings) (fpsSource : FpsSource)
    (capacity : Nat) (frames : List Frame) :
    Numbered ((new settings fpsSource capacity).assessments frames) := by
  apply List.ext_getElem
  · rw [List.length_map, List.length_range]
  · intro n hmap hrange
    rw [List.getElem_map, List.getElem_range]
    exact frame_of_getElem?_assessments (List.getElem?_eq_getElem _)

theorem level_changes_form_chain
    {settings : RiskSettings} {fpsSource : FpsSource} {capacity : Nat} {p : Pipeline}
    (hnew : Pipeline.ofSettings settings fpsSource capacity = .ok p) (frames : List Frame) :
    LevelChain (p.alarmSteps frames) ∧ p.currentLevel = .safe ∧
      ∀ taken ∈ p.run frames, taken.pipeline.currentLevel = taken.outcome.assessment.level := by
  obtain ⟨-, rfl⟩ := Pipeline.ofSettings_eq_ok_iff.mp hnew
  refine ⟨?_, rfl, ?_⟩
  · rw [Pipeline.alarmSteps_eq_run]
    exact AlarmGate.levelChain_run (Pipeline.numbered_assessments ..)
  · intro taken htaken
    obtain ⟨n, hn⟩ := List.mem_iff_getElem?.mp htaken
    obtain ⟨f, -, rfl⟩ := Pipeline.exists_step_of_getElem?_run hn
    rfl

/-- A person in the way, who is gone on the next frame. -/
theorem level_changes_form_chain_passing :
    let p := Pipeline.new .default (.constant 30) 16
    let frames : List Frame :=
      [⟨⟨640, 480⟩, none, [⟨1, 0, "Person", 1, ⟨260, 100, 380, 400⟩⟩]⟩, ⟨⟨640, 480⟩, none, []⟩]
    Pipeline.ofSettings .default (.constant 30) 16 = .ok p ∧
      (LevelChain (p.alarmSteps frames) ∧ p.currentLevel = .safe ∧
        ∀ taken ∈ p.run frames,
          taken.pipeline.currentLevel = taken.outcome.assessment.level) ∧
      (runChanges (p.alarmSteps frames)).map (fun c => (c.frame, c.before, c.after)) =
        [(0, .safe, .warn), (1, .warn, .safe)] := by
  intro p frames
  have hnew : Pipeline.ofSettings .default (.constant 30) 16 = .ok p :=
    Pipeline.ofSettings_default _ _
  refine ⟨hnew, level_changes_form_chain hnew frames, ?_⟩
  decide +kernel

end ObstacleWatch
