import Mathlib.Data.List.Forall2
import ObstacleWatch.Proofs.AlarmRun
import ObstacleWatch.Proofs.TrackProjection

/-!
# When warning onsets are raised

The gate keeps the tracked objects that were warnings on the last frame, so an onset of a tracked
object is raised exactly on the frames on which its warning starts.  Unrecognised objects raise one
onset for each warning.  The onsets of a frame are snapshots of some of its warnings, in their
order.
-/

namespace ObstacleWatch

/-! ## Warnings of a tracked object -/

namespace FrameAssessment

/-- Some object of the frame is the tracked one and a warning. -/
def Warns (a : FrameAssessment) (name : String) (id : Int) : Prop :=
  ∃ o ∈ a.objects, o.IsWarn ∧ o.detection.Shows name id

instance (a : FrameAssessment) (name : String) (id : Int) : Decidable (a.Warns name id) :=
  inferInstanceAs (Decidable (∃ o ∈ a.objects, _))

/-- How many objects of the frame are the tracked one and a warning. -/
def warnCount (a : FrameAssessment) (name : String) (id : Int) : Nat :=
  a.objects.countP fun o => o.IsWarn ∧ o.detection.Shows name id

theorem warnCount_pos_iff {a : FrameAssessment} {name : String} {id : Int} :
    0 < a.warnCount name id ↔ a.Warns name id := by
  simp [warnCount, Warns]

end FrameAssessment

/-- The tracked object is a warning on the frame at a place of a sequence. -/
def WarnsAt (assessments : List FrameAssessment) (name : String) (id : Int) (n : Nat) : Prop :=
  ∃ a ∈ assessments[n]?, a.Warns name id

instance (assessments : List FrameAssessment) (name : String) (id : Int) :
    DecidablePred (WarnsAt assessments name id) :=
  fun n => inferInstanceAs (Decidable (∃ a ∈ assessments[n]?, _))

/-- The tracked object is a warning on a frame and was none on the frame before. -/
def WarnStartsAt (assessments : List FrameAssessment) (name : String) (id : Int) (n : Nat) :
    Prop :=
  WarnsAt assessments name id n ∧ (n = 0 ∨ ¬WarnsAt assessments name id (n - 1))

instance (assessments : List FrameAssessment) (name : String) (id : Int) :
    DecidablePred (WarnStartsAt assessments name id) :=
  fun _ => inferInstanceAs (Decidable (_ ∧ _))

theorem warnStartsAt_iff
    {assessments : List FrameAssessment} {name : String} {id : Int} {n : Nat}
    {a : FrameAssessment} (ha : assessments[n]? = some a) :
    WarnStartsAt assessments name id n ↔
      a.Warns name id ∧ ¬∃ b ∈ frameBefore? assessments n, b.Warns name id := by
  rw [WarnStartsAt, WarnsAt, WarnsAt, ha, frameBefore?]
  by_cases hn : n = 0 <;> simp [hn]

/-! ## The onsets of one frame -/

namespace WarnOnset

/-- The onset is one of the tracked object. -/
def Announces (name : String) (id : Int) (w : WarnOnset) : Prop :=
  w.className = name ∧ w.trackId = id

instance (name : String) (id : Int) : DecidablePred (Announces name id) :=
  fun _ => inferInstanceAs (Decidable (_ ∧ _))

/-- The onset shows an object as it was on a frame. -/
structure Snapshot (frame : Nat) (w : WarnOnset) (o : AssessedObject) : Prop where
  frame : w.frame = frame
  trackId : w.trackId = o.detection.trackId
  className : w.className = o.detection.className
  score : w.score = o.metrics.score
  pttc : w.pttc = o.metrics.pttc
  distance : w.distance = o.metrics.distance
  closingRate : w.closingRate = o.metrics.closingRate
  box : w.box = o.detection.box

theorem snapshot_ofObject (frame : Nat) (o : AssessedObject) :
    Snapshot frame (ofObject frame o) o :=
  ⟨rfl, rfl, rfl, rfl, rfl, rfl, rfl, rfl⟩

theorem announces_ofObject_iff {frame : Nat} {o : AssessedObject} {name : String} {id : Int}
    (hid : 0 ≤ id) : (ofObject frame o).Announces name id ↔ o.detection.Shows name id := by
  unfold Announces Detection.Shows
  constructor
  · rintro ⟨hname, htrack⟩
    have hnumber : o.detection.trackId = id := htrack
    refine ⟨?_, hname, htrack⟩
    rw [Detection.IsTracked, hnumber]
    exact hid
  · rintro ⟨-, hname, htrack⟩
    exact ⟨hname, htrack⟩

end WarnOnset

/-- How many of some events are onsets of the tracked object. -/
def onsetCount (events : List AlarmEvent) (name : String) (id : Int) : Nat :=
  (warnOnsets events).countP fun w => w.Announces name id

namespace AlarmGate

variable {name : String} {id : Int}

theorem mem_warnedKeys_iff {a : FrameAssessment} :
    (name, id) ∈ warnedKeys a ↔ a.Warns name id := by
  simp only [warnedKeys, FrameAssessment.Warns, List.mem_map, List.mem_filter, decide_eq_true_eq,
    AssessedObject.alarmKey, Prod.mk.injEq]
  constructor
  · rintro ⟨o, ⟨hmem, hwarn, htracked⟩, hname, hnumber⟩
    exact ⟨o, hmem, hwarn, htracked, hname, hnumber⟩
  · rintro ⟨o, hmem, hwarn, htracked, hname, hnumber⟩
    exact ⟨o, ⟨hmem, hwarn, htracked⟩, hname, hnumber⟩

theorem mem_warned_remembering_iff {before : Option FrameAssessment} :
    (name, id) ∈ (remembering before).warned ↔ ∃ b ∈ before, b.Warns name id := by
  cases before with
  | none => simp [remembering, initial]
  | some b => simpa [remembering] using mem_warnedKeys_iff

theorem countP_onsets (g : AlarmGate) (a : FrameAssessment) (P : WarnOnset → Prop)
    [DecidablePred P] :
    (g.onsets a).countP (fun w => P w) =
      a.objects.countP fun o => P (.ofObject a.frame o) ∧ g.Starts o := by
  rw [onsets, List.countP_map, List.countP_filter]
  apply List.countP_congr
  intro o _
  simp

/-- A frame raises one onset for each warning of a tracked object, unless the object was a warning
on the frame before. -/
theorem onsetCount_events (before : Option FrameAssessment) (a : FrameAssessment)
    (hid : 0 ≤ id) :
    onsetCount ((remembering before).events a) name id =
      if ∃ b ∈ before, b.Warns name id then 0 else a.warnCount name id := by
  -- Whether an object that shows the tracked one starts a warning does not depend on the object.
  have hstarts : ∀ o : AssessedObject, o.detection.Shows name id →
      ((remembering before).Starts o ↔ o.IsWarn ∧ ¬∃ b ∈ before, b.Warns name id) := by
    rintro o ⟨htracked, rfl, rfl⟩
    rw [Starts, AssessedObject.alarmKey, mem_warned_remembering_iff]
    simp [htracked]
  rw [onsetCount, warnOnsets_events, countP_onsets]
  by_cases hbefore : ∃ b ∈ before, b.Warns name id
  · rw [if_pos hbefore, List.countP_eq_zero]
    intro o _
    rw [decide_eq_true_eq, WarnOnset.announces_ofObject_iff hid]
    rintro ⟨hshows, hstart⟩
    exact ((hstarts o hshows).mp hstart).2 hbefore
  · rw [if_neg hbefore, FrameAssessment.warnCount]
    apply List.countP_congr
    intro o _
    rw [decide_eq_true_eq, decide_eq_true_eq, WarnOnset.announces_ofObject_iff hid]
    constructor
    · rintro ⟨hshows, hstart⟩
      exact ⟨((hstarts o hshows).mp hstart).1, hshows⟩
    · rintro ⟨hwarn, hshows⟩
      exact ⟨hshows, (hstarts o hshows).mpr ⟨hwarn, hbefore⟩⟩

theorem onsetCount_at {assessments : List FrameAssessment} {n : Nat} {a : FrameAssessment}
    (ha : assessments[n]? = some a) (hid : 0 ≤ id) :
    onsetCount ((remembering (frameBefore? assessments n)).events a) name id =
      if WarnStartsAt assessments name id n then a.warnCount name id else 0 := by
  rw [onsetCount_events _ a hid]
  by_cases hbefore : ∃ b ∈ frameBefore? assessments n, b.Warns name id
  · have hstart : ¬WarnStartsAt assessments name id n :=
      fun hstart => ((warnStartsAt_iff ha).mp hstart).2 hbefore
    rw [if_pos hbefore, if_neg hstart]
  · rw [if_neg hbefore]
    by_cases hwarns : a.Warns name id
    · rw [if_pos ((warnStartsAt_iff ha).mpr ⟨hwarns, hbefore⟩)]
    · have hstart : ¬WarnStartsAt assessments name id n :=
        fun hstart => hwarns ((warnStartsAt_iff ha).mp hstart).1
      rw [if_neg hstart]
      exact Nat.eq_zero_of_not_pos fun hpos => hwarns (FrameAssessment.warnCount_pos_iff.mp hpos)

/-- Unrecognised objects raise an onset for each warning, whatever the gate remembers. -/
theorem countP_untracked_onsets (g : AlarmGate) (a : FrameAssessment) :
    (g.onsets a).countP (fun w => w.trackId < 0) =
      a.objects.countP fun o => o.IsWarn ∧ ¬o.detection.IsTracked := by
  rw [countP_onsets]
  apply List.countP_congr
  intro o _
  have hnumber : (WarnOnset.ofObject a.frame o).trackId < 0 ↔ ¬o.detection.IsTracked :=
    Int.not_le.symm
  rw [decide_eq_true_eq, decide_eq_true_eq, hnumber, Starts]
  constructor
  · rintro ⟨huntracked, hwarn, -⟩
    exact ⟨hwarn, huntracked⟩
  · rintro ⟨hwarn, huntracked⟩
    exact ⟨huntracked, hwarn, fun hknown => huntracked hknown.1⟩

theorem exists_sublist_snapshots (g : AlarmGate) (a : FrameAssessment) :
    ∃ chosen, chosen.Sublist a.objects ∧ (∀ o ∈ chosen, o.IsWarn) ∧
      List.Forall₂ (WarnOnset.Snapshot a.frame) (g.onsets a) chosen := by
  refine ⟨a.objects.filter fun o => g.Starts o, List.filter_sublist, ?_, ?_⟩
  · intro o hmem
    have hstart := List.of_mem_filter hmem
    exact (of_decide_eq_true hstart).1
  · rw [onsets, List.forall₂_map_left_iff, List.forall₂_same]
    intro o _
    exact WarnOnset.snapshot_ofObject a.frame o

end AlarmGate

/-! ## The onsets of a run -/

/-- What the events of the frame at a place of a sequence tell about the warnings of the
sequence. -/
structure OnsetsTell (assessments : List FrameAssessment) (n : Nat) (taken : AlarmStep) :
    Prop where
  assessment : assessments[n]? = some taken.assessment
  tracked : ∀ name id, 0 ≤ id →
    ((∃ w ∈ warnOnsets taken.events, w.Announces name id) ↔ WarnStartsAt assessments name id n)
  untracked :
    (warnOnsets taken.events).countP (fun w => w.trackId < 0) =
      taken.assessment.objects.countP fun o => o.IsWarn ∧ ¬o.detection.IsTracked
  snapshots : ∃ chosen, chosen.Sublist taken.assessment.objects ∧ (∀ o ∈ chosen, o.IsWarn) ∧
    List.Forall₂ (WarnOnset.Snapshot taken.assessment.frame) (warnOnsets taken.events) chosen

theorem exists_announces_iff {events : List AlarmEvent} {name : String} {id : Int} :
    (∃ w ∈ warnOnsets events, w.Announces name id) ↔ 0 < onsetCount events name id := by
  simp [onsetCount]

theorem warn_onsets_when_warnings_start
    (assessments : List FrameAssessment) {n : Nat} {taken : AlarmStep}
    (htaken : (AlarmGate.initial.run assessments)[n]? = some taken) :
    OnsetsTell assessments n taken := by
  obtain ⟨a, ha⟩ := AlarmGate.exists_assessment_of_getElem?_run htaken
  rw [AlarmGate.getElem?_run_initial ha] at htaken
  obtain rfl := Option.some.inj htaken
  let gate := AlarmGate.remembering (frameBefore? assessments n)
  have honsets : warnOnsets (gate.step a).events = gate.onsets a := gate.warnOnsets_events a
  refine ⟨ha, ?_, ?_, ?_⟩
  · intro name id hid
    have hcount : onsetCount (gate.step a).events name id = _ :=
      AlarmGate.onsetCount_at ha hid
    rw [exists_announces_iff, hcount]
    by_cases hstart : WarnStartsAt assessments name id n
    · rw [if_pos hstart]
      have hwarns := ((warnStartsAt_iff ha).mp hstart).1
      exact iff_of_true (FrameAssessment.warnCount_pos_iff.mpr hwarns) hstart
    · rw [if_neg hstart]
      exact iff_of_false (Nat.lt_irrefl 0) hstart
  · rw [honsets]
    exact gate.countP_untracked_onsets a
  · rw [honsets]
    exact gate.exists_sublist_snapshots a

/-- A person that was a warning already, between a stranger and a cart with the same number. -/
theorem warn_onsets_when_warnings_start_crowd :
    let warning : RiskMetrics :=
      ⟨.warn, 2400, 1.5, 0.05, 0.03, true, true, true, false, 200, 8000⟩
    let person : AssessedObject := ⟨⟨4, 0, "Person", 1, ⟨300, 100, 340, 300⟩⟩, warning⟩
    let cart : AssessedObject := ⟨⟨4, 1, "Cart", 1, ⟨300, 100, 340, 300⟩⟩, warning⟩
    let stranger : AssessedObject := ⟨⟨-1, 0, "Person", 1, ⟨300, 100, 340, 300⟩⟩, warning⟩
    let assessments : List FrameAssessment :=
      [⟨0, 30, [person]⟩, ⟨1, 30, [stranger, person, cart]⟩]
    ∃ taken, (AlarmGate.initial.run assessments)[1]? = some taken ∧
      OnsetsTell assessments 1 taken ∧
      (warnOnsets taken.events).map (fun w => (w.className, w.trackId)) =
        [("Person", -1), ("Cart", 4)] := by
  intro warning person cart stranger assessments
  refine ⟨_, rfl, warn_onsets_when_warnings_start assessments rfl, ?_⟩
  decide

end ObstacleWatch
