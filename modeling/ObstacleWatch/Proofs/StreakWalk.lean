import Mathlib
import ObstacleWatch.Proofs.TrackLifetime

/-!
# The approach streak as a walk

A streak goes up by one on a detection that approaches inside a band and down by one on any other,
and it is reflected at zero.  Such a walk forgets what lies before its last visit to zero: it ends
where it would end without the floor, or, if that is higher, at the greatest climb that some last
part of its steps makes.  A long streak is therefore always due to recent detections, of which so
many more have approached than not.
-/

namespace ObstacleWatch

/-! ## Steps -/

/-- What a detection shows the streak. -/
structure StreakStep where
  approaching : Bool
  inCenter : Bool
  inNearCenter : Bool
  deriving Repr, DecidableEq

namespace StreakStep

/-- The detection approaches inside either band. -/
def Rises (x : StreakStep) : Prop :=
  x.approaching = true ∧ (x.inCenter = true ∨ x.inNearCenter = true)

instance : DecidablePred Rises :=
  fun _ => inferInstanceAs (Decidable (_ ∧ _))

/-- One up for a step that rises, and one down for any other. -/
def climb (x : StreakStep) : Int :=
  if x.Rises then 1 else -1

/-- The streak after one more step. -/
def after (x : StreakStep) (streak : Nat) : Nat :=
  nextStreak streak x.approaching x.inCenter x.inNearCenter

variable {x : StreakStep} {streak : Nat}

theorem after_of_rises (hrises : x.Rises) : x.after streak = min (streak + 1) greatestStreak := by
  have hband : (x.approaching && (x.inCenter || x.inNearCenter)) = true := by
    simpa [Rises] using hrises
  rw [after, nextStreak, hband, if_pos rfl]

theorem after_of_not_rises (hfalls : ¬x.Rises) : x.after streak = streak - 1 := by
  have hband : (x.approaching && (x.inCenter || x.inNearCenter)) = false := by
    simpa [Rises] using hfalls
  rw [after, nextStreak, hband]
  rfl

theorem after_le (x : StreakStep) (streak : Nat) : x.after streak ≤ streak + 1 := by
  by_cases hrises : x.Rises
  · rw [after_of_rises hrises]
    exact Nat.min_le_left _ _
  · rw [after_of_not_rises hrises]
    omega

/-- The greatest streak cannot grow; any other grows on the steps that rise. -/
theorem lt_after_iff : streak < x.after streak ↔ x.Rises ∧ streak < greatestStreak := by
  by_cases hrises : x.Rises
  · rw [after_of_rises hrises, Nat.lt_min, and_iff_right (Nat.lt_succ_self streak),
      and_iff_right hrises]
  · rw [after_of_not_rises hrises]
    exact iff_of_false (by omega) fun hgrows => hrises hgrows.1

/-- A step of the walk that no ceiling stops is reflected at zero and free otherwise. -/
theorem after_eq (hroom : x.Rises → streak < greatestStreak) :
    (x.after streak : Int) = max 0 (streak + x.climb) := by
  by_cases hrises : x.Rises
  · have hlt := hroom hrises
    rw [after_of_rises hrises, Nat.min_eq_left hlt, climb, if_pos hrises]
    omega
  · rw [after_of_not_rises hrises, climb, if_neg hrises]
    omega

theorem after_le_max (x : StreakStep) (streak : Nat) :
    (x.after streak : Int) ≤ max 0 (streak + x.climb) := by
  by_cases hrises : x.Rises
  · have hle := x.after_le streak
    rw [climb, if_pos hrises]
    omega
  · exact (after_eq fun hup => absurd hup hrises).le

end StreakStep

/-! ## Walks -/

/-- The streak after some steps. -/
def streakAfter (start : Nat) (steps : List StreakStep) : Nat :=
  steps.foldl (fun streak x => x.after streak) start

/-- How far the steps lead without a floor. -/
def totalClimb (steps : List StreakStep) : Int :=
  (steps.map (·.climb)).sum

/-- The greatest climb of a last part of the steps; the empty part climbs nothing. -/
def greatestEnd : List StreakStep → Int
  | [] => 0
  | x :: rest => max (totalClimb (x :: rest)) (greatestEnd rest)

/-- No step that rises finds the greatest streak already reached. -/
def IsUncapped (start : Nat) (steps : List StreakStep) : Prop :=
  ∀ front x, front ++ [x] <+: steps → x.Rises → streakAfter start front < greatestStreak

variable {start : Nat} {x : StreakStep} {rest steps : List StreakStep}

@[simp] theorem streakAfter_nil (start : Nat) : streakAfter start [] = start := rfl

@[simp] theorem streakAfter_cons (start : Nat) (x : StreakStep) (rest : List StreakStep) :
    streakAfter start (x :: rest) = streakAfter (x.after start) rest := rfl

theorem streakAfter_concat (start : Nat) (steps : List StreakStep) (x : StreakStep) :
    streakAfter start (steps ++ [x]) = x.after (streakAfter start steps) := by
  simp [streakAfter]

@[simp] theorem totalClimb_nil : totalClimb [] = 0 := rfl

@[simp] theorem totalClimb_cons (x : StreakStep) (rest : List StreakStep) :
    totalClimb (x :: rest) = x.climb + totalClimb rest := by
  simp [totalClimb]

theorem totalClimb_eq (steps : List StreakStep) :
    totalClimb steps = (steps.countP fun x => x.Rises) - (steps.countP fun x => ¬x.Rises : Nat) := by
  induction steps with
  | nil => rfl
  | cons x rest ih =>
      rw [totalClimb_cons, ih, StreakStep.climb]
      by_cases hrises : x.Rises
      · simp only [hrises, if_true, List.countP_cons, decide_true, not_true, decide_false]
        push_cast
        omega
      · simp only [hrises, if_false, List.countP_cons, decide_false, not_false_eq_true, decide_true]
        push_cast
        omega

theorem isGreatest_greatestEnd (steps : List StreakStep) :
    IsGreatest (totalClimb '' {recent | recent <:+ steps}) (greatestEnd steps) := by
  induction steps with
  | nil => simp [greatestEnd]
  | cons x rest ih =>
      have hends : {recent | recent <:+ x :: rest} =
          insert (x :: rest) {recent | recent <:+ rest} := by
        ext recent
        exact List.suffix_cons_iff
      rw [hends, Set.image_insert_eq]
      exact ih.insert (totalClimb (x :: rest))

theorem totalClimb_le_greatestEnd (steps : List StreakStep) :
    totalClimb steps ≤ greatestEnd steps :=
  (isGreatest_greatestEnd steps).2 ⟨steps, List.suffix_rfl, rfl⟩

theorem IsUncapped.of_cons (huncapped : IsUncapped start (x :: rest)) :
    (x.Rises → start < greatestStreak) ∧ IsUncapped (x.after start) rest := by
  constructor
  · exact huncapped [] x ⟨rest, rfl⟩
  · intro front y hfront
    exact huncapped (x :: front) y ((List.prefix_cons_inj x).mpr hfront)

theorem streakAfter_le_add_length (start : Nat) (steps : List StreakStep) :
    streakAfter start steps ≤ start + steps.length := by
  induction steps generalizing start with
  | nil => exact Nat.le_refl start
  | cons x rest ih =>
      have hfirst := x.after_le start
      have hwalk := ih (x.after start)
      rw [streakAfter_cons, List.length_cons]
      omega

/-- A walk that is too short to reach the greatest streak is uncapped. -/
theorem isUncapped_of_le (hshort : start + steps.length ≤ greatestStreak) :
    IsUncapped start steps := by
  intro front x hfront _
  have hlength := hfront.length_le
  have hfar := streakAfter_le_add_length start front
  rw [List.length_append, List.length_singleton] at hlength
  omega

/-- The walk from any start, where no ceiling stops it. -/
theorem streakAfter_eq (huncapped : IsUncapped start steps) :
    (streakAfter start steps : Int) = max (start + totalClimb steps) (greatestEnd steps) := by
  induction steps generalizing start with
  | nil => simp [greatestEnd]
  | cons x rest ih =>
      obtain ⟨hroom, hrest⟩ := huncapped.of_cons
      -- What the floor gives the first step counts like a walk that starts with the second one.
      have hend := totalClimb_le_greatestEnd rest
      rw [streakAfter_cons, ih hrest, StreakStep.after_eq hroom, greatestEnd, totalClimb_cons]
      omega

theorem streakAfter_le (start : Nat) (steps : List StreakStep) :
    (streakAfter start steps : Int) ≤ max (start + totalClimb steps) (greatestEnd steps) := by
  induction steps generalizing start with
  | nil => simp
  | cons x rest ih =>
      have hfirst := x.after_le_max start
      have hend := totalClimb_le_greatestEnd rest
      have hwalk := ih (x.after start)
      rw [streakAfter_cons, greatestEnd, totalClimb_cons]
      omega

/-- From zero, some last part of the steps climbs as high as the streak. -/
theorem exists_recent_of_streakAfter (steps : List StreakStep) :
    ∃ recent, recent <:+ steps ∧
      streakAfter 0 steps + (recent.countP fun x => ¬x.Rises) ≤ recent.countP fun x => x.Rises := by
  obtain ⟨⟨recent, hrecent, hclimb⟩, -⟩ := isGreatest_greatestEnd steps
  refine ⟨recent, hrecent, ?_⟩
  have hwalk := streakAfter_le 0 steps
  have hend := totalClimb_le_greatestEnd steps
  rw [totalClimb_eq recent] at hclimb
  omega

/-- The streak after a walk is reflected at zero: it is where the steps lead without a floor, or the
greatest climb of a last part of them.  From zero it never exceeds what some last part climbs. -/
theorem streak_is_reflected_walk (start : Nat) (steps : List StreakStep) :
    (IsUncapped start steps →
        (streakAfter start steps : Int) = max (start + totalClimb steps) (greatestEnd steps)) ∧
      IsGreatest (totalClimb '' {recent | recent <:+ steps}) (greatestEnd steps) ∧
      ∃ recent, recent <:+ steps ∧
        streakAfter 0 steps + (recent.countP fun x => ¬x.Rises) ≤
          recent.countP fun x => x.Rises :=
  ⟨streakAfter_eq, isGreatest_greatestEnd steps, exists_recent_of_streakAfter steps⟩

/-- A streak of one that is lost on the way: what is left is due to the last two steps. -/
theorem streak_is_reflected_walk_floor :
    let rise : StreakStep := ⟨true, false, true⟩
    let aside : StreakStep := ⟨true, false, false⟩
    let steps := [rise, aside, aside, aside, rise, rise]
    IsUncapped 1 steps ∧ streakAfter 1 steps = 2 ∧ 1 + totalClimb steps = 1 ∧
      (streakAfter 1 steps : Int) = max (1 + totalClimb steps) (greatestEnd steps) := by
  intro rise aside steps
  have huncapped : IsUncapped 1 steps := isUncapped_of_le (by decide)
  exact ⟨huncapped, rfl, rfl, (streak_is_reflected_walk 1 steps).1 huncapped⟩

/-! ## Lifetimes -/

namespace Sighting

def streakStep (s : Sighting) : StreakStep :=
  ⟨s.metrics.approaching, s.metrics.inCenter, s.metrics.inNearCenter⟩

end Sighting

variable {settings : RiskSettings} {key : TrackKey} {past : List Sighting} {s : Sighting}
  {t : Track}

theorem slotSight_streak (settings : RiskSettings) (ctx : FrameContext) (key : TrackKey)
    (slot : Option Track) (d : Detection) :
    (slotSight settings ctx key slot d).2.streak =
      (slotSight settings ctx key slot d).2.streakStep.after
        (Track.found ctx.index slot).streak := by
  rfl

/-- The streak of a track is the walk of its lifetime. -/
theorem History.streak_eq (hpast : History settings key past (some t)) :
    t.streak = streakAfter 0 ((lifetime past).map (·.streakStep)) := by
  refine of_lifetime (P := fun life t => t.streak = streakAfter 0 (life.map (·.streakStep)))
    ?_ ?_ hpast rfl
  · intro ctx d
    rfl
  · intro life t ctx d hlife
    have hlast := slotSight_streak settings ctx key (some t) d
    have hfound : (Track.found ctx.index (some t)).streak = t.streak := rfl
    rw [List.map_append, List.map_singleton, streakAfter_concat, ← hlife, ← hfound, ← hlast]
    rfl

/-- The streak that a detection is assessed with: among the latest detections of the lifetime, up to
some place, at least so many more have approached inside a band than not. -/
theorem streak_counts_recent_approaches
    {engine : RiskEngine} (hnew : RiskEngine.ofSettings settings = .ok engine)
    (name : String) (id : Int) (frames : List EngineFrame)
    (hfront : past ++ [s] <+: engine.sightingsOf (.object name id) frames) :
    s.streak = streakAfter 0 ((lifetime (past ++ [s])).map (·.streakStep)) ∧
      ∃ recent, recent <:+ lifetime (past ++ [s]) ∧
        s.streak + (recent.countP fun t => ¬t.ApproachesInBand) ≤
          recent.countP fun t => t.ApproachesInBand := by
  obtain ⟨slot, hall⟩ := RiskEngine.exists_history hnew name id frames
  obtain ⟨t, hpast, htells⟩ := hall.exists_track_of_prefix hfront
  have hwalk : s.streak = streakAfter 0 ((lifetime (past ++ [s])).map (·.streakStep)) := by
    rw [htells.streak, hpast.streak_eq]
  obtain ⟨ending, ⟨before, hsplit⟩, hcount⟩ :=
    exists_recent_of_streakAfter ((lifetime (past ++ [s])).map (·.streakStep))
  obtain ⟨earlier, recent, hlife, -, rfl⟩ := List.map_eq_append_iff.mp hsplit.symm
  refine ⟨hwalk, recent, ⟨earlier, hlife.symm⟩, ?_⟩
  rw [← hwalk, List.countP_map, List.countP_map] at hcount
  exact hcount

end ObstacleWatch
