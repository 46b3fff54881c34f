import Mathlib.Data.List.Induction
import ObstacleWatch.Proofs.FloatGaps
import ObstacleWatch.Proofs.PipelineRun

/-!
# Timestamps that move forward

Timestamps may come in any order, repeat, or not be finite.  Only those that are later than every
finite one before them count: the estimator remembers the latest of them, so all others leave it as
it is.  What it has after a stream is therefore what the forward timestamps alone give it, and its
estimate is computed from the intervals between them.  The estimator makes two comparisons, of the
computed interval with zero and of the timestamps with each other; they agree because the difference
of two different doubles never rounds to zero.
-/

namespace ObstacleWatch

namespace FrameRate

variable {past ts : List Float} {t : Float} {r : FrameRate}

/-! ## Forward timestamps -/

/-- The timestamp is finite and later than every finite one before it. -/
def MovesForward (past : List Float) (t : Float) : Prop :=
  t.isFinite = true ∧ ∀ u ∈ past, u.isFinite = true → u < t

instance (past : List Float) (t : Float) : Decidable (MovesForward past t) :=
  inferInstanceAs (Decidable (_ ∧ _))

/-- The timestamps that move forward when others came before them. -/
def forwardAfter : List Float → List Float → List Float
  | _, [] => []
  | past, t :: ts =>
      let rest := forwardAfter (past ++ [t]) ts
      if MovesForward past t then t :: rest else rest

def forward (ts : List Float) : List Float :=
  forwardAfter [] ts

theorem forwardAfter_concat (past ts : List Float) (t : Float) :
    forwardAfter past (ts ++ [t]) =
      forwardAfter past ts ++ if MovesForward (past ++ ts) t then [t] else [] := by
  induction ts generalizing past with
  | nil => simp [forwardAfter]
  | cons u us ih =>
      rw [List.cons_append, forwardAfter, forwardAfter, ih, List.append_assoc]
      split <;> rfl

theorem forward_concat_of_moves (ht : MovesForward ts t) :
    forward (ts ++ [t]) = forward ts ++ [t] := by
  rw [forward, forwardAfter_concat, List.nil_append, if_pos ht]
  rfl

theorem forward_concat_of_not_moves (ht : ¬MovesForward ts t) :
    forward (ts ++ [t]) = forward ts := by
  rw [forward, forwardAfter_concat, List.nil_append, if_neg ht, List.append_nil]
  rfl

/-- A stream grows by timestamps that move forward and by others. -/
@[elab_as_elim]
theorem forward_induction {motive : List Float → Prop} (ts : List Float) (nil : motive [])
    (moves : ∀ ts t, MovesForward ts t → motive ts → motive (ts ++ [t]))
    (stays : ∀ ts t, ¬MovesForward ts t → motive ts → motive (ts ++ [t])) : motive ts := by
  induction ts using List.reverseRecOn with
  | nil => exact nil
  | append_singleton ts t ih =>
      by_cases ht : MovesForward ts t
      · exact moves ts t ht ih
      · exact stays ts t ht ih

theorem mem_and_isFinite_of_mem_forward {u : Float} (hu : u ∈ forward ts) :
    u ∈ ts ∧ u.isFinite = true := by
  induction ts using forward_induction with
  | nil => simp [forward, forwardAfter] at hu
  | moves ts t ht ih =>
      rw [forward_concat_of_moves ht, List.mem_append, List.mem_singleton] at hu
      rcases hu with hearlier | rfl
      · exact ⟨List.mem_append_left _ (ih hearlier).1, (ih hearlier).2⟩
      · exact ⟨by simp, ht.1⟩
  | stays ts t ht ih =>
      rw [forward_concat_of_not_moves ht] at hu
      exact ⟨List.mem_append_left _ (ih hu).1, (ih hu).2⟩

theorem pairwise_forward (ts : List Float) : (forward ts).Pairwise (· < ·) := by
  induction ts using forward_induction with
  | nil => exact List.Pairwise.nil
  | moves ts t ht ih =>
      rw [forward_concat_of_moves ht]
      refine List.pairwise_append.mpr ⟨ih, List.pairwise_singleton _ _, fun u hu last hlast => ?_⟩
      obtain ⟨hmem, hfinite⟩ := mem_and_isFinite_of_mem_forward hu
      rw [List.mem_singleton.mp hlast]
      exact ht.2 u hmem hfinite
  | stays ts t ht ih => rwa [forward_concat_of_not_moves ht]

/-! ## The latest timestamp -/

/-- What is remembered is the latest of the finite timestamps, if there is one. -/
structure RemembersLatest (ts : List Float) (latest : Option Float) : Prop where
  seen : ∀ m, latest = some m → m ∈ ts ∧ m.isFinite = true
  greatest : ∀ u ∈ ts, u.isFinite = true → ∃ m, latest = some m ∧ u ≤ m

namespace RemembersLatest

variable {latest : Option Float}

theorem movesForward_iff (hlatest : RemembersLatest ts latest) :
    MovesForward ts t ↔ t.isFinite = true ∧ ∀ m, latest = some m → m < t := by
  refine and_congr_right fun _ => ⟨fun hforward m hm => ?_, fun hlater u hu hfinite => ?_⟩
  · obtain ⟨hmem, hfinite⟩ := hlatest.seen m hm
    exact hforward m hmem hfinite
  · obtain ⟨m, hm, hle⟩ := hlatest.greatest u hu hfinite
    exact float_lt_of_le_of_lt hle (hlater m hm)

theorem concat_of_moves (ht : MovesForward ts t) : RemembersLatest (ts ++ [t]) (some t) where
  seen := by
    rintro m ⟨⟩
    exact ⟨by simp, ht.1⟩
  greatest := by
    refine List.forall_mem_append.mpr ⟨fun u hu hfinite => ⟨t, rfl, ?_⟩, ?_⟩
    · exact float_le_of_lt (ht.2 u hu hfinite)
    · exact List.forall_mem_singleton.mpr fun hfinite =>
        ⟨t, rfl, float_le_refl (.of_isFinite hfinite)⟩

theorem concat_of_not_moves (hlatest : RemembersLatest ts latest) (ht : ¬MovesForward ts t) :
    RemembersLatest (ts ++ [t]) latest where
  seen := by
    intro m hm
    obtain ⟨hmem, hfinite⟩ := hlatest.seen m hm
    exact ⟨List.mem_append_left _ hmem, hfinite⟩
  greatest := by
    refine List.forall_mem_append.mpr ⟨hlatest.greatest, List.forall_mem_singleton.mpr ?_⟩
    intro hfinite
    rw [hlatest.movesForward_iff] at ht
    push Not at ht
    obtain ⟨m, hm, hlt⟩ := ht hfinite
    have hmfinite := (hlatest.seen m hm).2
    exact ⟨m, hm, float_le_of_not_lt (.of_isFinite hmfinite) (.of_isFinite hfinite) hlt⟩

end RemembersLatest

/-! ## One tick -/

/-- The estimator with a forward timestamp taken over. -/
def advance (r : FrameRate) (t : Float) : FrameRate :=
  ⟨some t,
    match r.latest with
    | none => r.fps
    | some latest => smooth r.fps (t - latest)⟩

theorem tick_of_some {m : Float} (hsome : r.latest = some m) (hm : m.isFinite = true)
    (ht : t.isFinite = true) : r.tick t = if m < t then r.advance t else r := by
  -- The interval is rounded, but no positive one rounds to zero, so both comparisons agree.
  have hinterval := float_sub_pos_iff hm ht
  rw [tick, if_pos ht, advance, hsome]
  dsimp only
  simp only [hinterval]
  split
  · rfl
  · rw [← hsome]

theorem tick_of_moves (hlatest : RemembersLatest ts r.latest) (ht : MovesForward ts t) :
    r.tick t = r.advance t := by
  obtain ⟨hfinite, hlater⟩ := hlatest.movesForward_iff.mp ht
  cases hfound : r.latest with
  | none => rw [tick, if_pos hfinite, advance, hfound]
  | some m => rw [tick_of_some hfound (hlatest.seen m hfound).2 hfinite, if_pos (hlater m hfound)]

theorem tick_of_not_moves (hlatest : RemembersLatest ts r.latest) (ht : ¬MovesForward ts t) :
    r.tick t = r := by
  rw [hlatest.movesForward_iff] at ht
  by_cases hfinite : t.isFinite = true
  · push Not at ht
    obtain ⟨m, hfound, hlt⟩ := ht hfinite
    rw [tick_of_some hfound (hlatest.seen m hfound).2 hfinite, if_neg hlt]
  · rw [tick, if_neg hfinite]

/-! ## The estimator along a stream -/

/-- A new estimator after some timestamps. -/
def after (ts : List Float) : FrameRate :=
  ts.foldl tick initial

theorem after_concat (ts : List Float) (t : Float) : after (ts ++ [t]) = (after ts).tick t := by
  simp [after]

theorem after_append (past later : List Float) :
    after (past ++ later) = later.foldl tick (after past) := by
  rw [after, List.foldl_append, after]

theorem remembersLatest_after (ts : List Float) : RemembersLatest ts (after ts).latest := by
  induction ts using forward_induction with
  | nil => exact ⟨nofun, by simp⟩
  | moves ts t ht ih =>
      rw [after_concat, tick_of_moves ih ht]
      exact .concat_of_moves ht
  | stays ts t ht ih =>
      rw [after_concat, tick_of_not_moves ih ht]
      exact ih.concat_of_not_moves ht

theorem after_concat_of_moves (ht : MovesForward ts t) :
    after (ts ++ [t]) = (after ts).advance t := by
  rw [after_concat, tick_of_moves (remembersLatest_after ts) ht]

theorem after_concat_of_not_moves (ht : ¬MovesForward ts t) : after (ts ++ [t]) = after ts := by
  rw [after_concat, tick_of_not_moves (remembersLatest_after ts) ht]

theorem after_forward (ts : List Float) : after (forward ts) = after ts := by
  induction ts using forward_induction with
  | nil => rfl
  | moves ts t ht ih => rw [forward_concat_of_moves ht, after_concat, ih, ← after_concat]
  | stays ts t ht ih => rw [forward_concat_of_not_moves ht, after_concat_of_not_moves ht, ih]

/-- The remembered timestamp is the last of the forward ones. -/
theorem latest_after (ts : List Float) : (after ts).latest = (forward ts).getLast? := by
  induction ts using forward_induction with
  | nil => rfl
  | moves ts t ht ih =>
      rw [forward_concat_of_moves ht, after_concat_of_moves ht, List.getLast?_concat]
      rfl
  | stays ts t ht ih => rw [forward_concat_of_not_moves ht, after_concat_of_not_moves ht, ih]

/-! ## The estimate -/

def intervals : List Float → List Float
  | a :: b :: rest => (b - a) :: intervals (b :: rest)
  | _ => []

theorem intervals_concat {m : Float} (hlast : ts.getLast? = some m) (t : Float) :
    intervals (ts ++ [t]) = intervals ts ++ [t - m] := by
  induction ts using intervals.induct with
  | case1 a b rest ih =>
      rw [List.getLast?_cons_cons] at hlast
      rw [List.cons_append, List.cons_append, intervals, ← List.cons_append, ih hlast, intervals,
        List.cons_append]
  | case2 ts hshort =>
      match ts with
      | [] => contradiction
      | [a] =>
          obtain rfl : a = m := by simpa using hlast
          rfl
      | a :: b :: rest => exact absurd rfl (hshort a b rest)

/-- The estimate after one more interval.  There is none to blend with if it is zero. -/
def blend (fps interval : Float) : Float :=
  if fps == 0 then 1 / interval else 0.9 * fps + 0.1 * (1 / interval)

def estimateOf (gaps : List Float) : Float :=
  gaps.foldl blend 0

theorem smooth_eq_blend {fps : Float} (hfps : 0 ≤ fps) (interval : Float) :
    smooth fps interval = blend fps interval := by
  have hzero : fps ≤ 0 ↔ (fps == 0) = true := by
    obtain ⟨hnumber, hnonneg⟩ := nonneg_iff_value.mp hfps
    rw [le_iff_value, beq_iff_value, value_zero]
    exact ⟨fun h => ⟨hnumber, isNumber_zero, le_antisymm h.2.2 hnonneg⟩,
      fun h => ⟨hnumber, isNumber_zero, h.2.2.le⟩⟩
  unfold smooth blend
  simp only [hzero]

theorem blend_nonneg {fps interval : Float} (hfps : 0 ≤ fps) (hinterval : 0 < interval) :
    0 ≤ blend fps interval := by
  have hinstant : 0 ≤ 1 / interval := float_div_nonneg (by decide +kernel) hinterval (.inl rfl)
  unfold blend
  split
  · exact hinstant
  · exact float_add_nonneg (float_mul_nonneg_of_pos (by decide +kernel) rfl hfps)
      (float_mul_nonneg_of_pos (by decide +kernel) rfl hinstant)

/-- A forward timestamp adds the interval since the remembered one, if there is one. -/
theorem intervals_forward_concat (ht : MovesForward ts t) :
    (after ts).latest = none ∧ intervals (forward (ts ++ [t])) = intervals (forward ts) ∨
      ∃ m, (after ts).latest = some m ∧ 0 < t - m ∧
        intervals (forward (ts ++ [t])) = intervals (forward ts) ++ [t - m] := by
  have hlatest := remembersLatest_after ts
  rw [forward_concat_of_moves ht]
  cases hfound : (after ts).latest with
  | none =>
      have hempty : forward ts = [] := by rwa [latest_after, List.getLast?_eq_none_iff] at hfound
      exact .inl ⟨rfl, by rw [hempty]; rfl⟩
  | some m =>
      obtain ⟨hfinite, hlater⟩ := hlatest.movesForward_iff.mp ht
      have hgap : 0 < t - m :=
        (float_sub_pos_iff (hlatest.seen m hfound).2 hfinite).mpr (hlater m hfound)
      rw [latest_after] at hfound
      exact .inr ⟨m, rfl, hgap, intervals_concat hfound t⟩

theorem intervals_forward_pos (ts : List Float) : ∀ gap ∈ intervals (forward ts), 0 < gap := by
  induction ts using forward_induction with
  | nil => exact nofun
  | moves ts t ht ih =>
      obtain ⟨-, hsame⟩ | ⟨m, -, hgap, hadded⟩ := intervals_forward_concat ht
      · rwa [hsame]
      · rw [hadded]
        exact List.forall_mem_append.mpr ⟨ih, List.forall_mem_singleton.mpr hgap⟩
  | stays ts t ht ih => rwa [forward_concat_of_not_moves ht]

theorem estimateOf_concat (gaps : List Float) (gap : Float) :
    estimateOf (gaps ++ [gap]) = blend (estimateOf gaps) gap := by
  simp [estimateOf]

theorem estimateOf_nonneg {gaps : List Float} (hgaps : ∀ gap ∈ gaps, 0 < gap) :
    0 ≤ estimateOf gaps := by
  induction gaps using List.reverseRecOn with
  | nil => exact float_le_refl isNumber_zero
  | append_singleton gaps gap ih =>
      obtain ⟨hearlier, hgap⟩ := List.forall_mem_append.mp hgaps
      rw [estimateOf_concat]
      exact blend_nonneg (ih hearlier) (List.forall_mem_singleton.mp hgap)

theorem fps_after (ts : List Float) : (after ts).fps = estimateOf (intervals (forward ts)) := by
  induction ts using forward_induction with
  | nil => rfl
  | moves ts t ht ih =>
      rw [after_concat_of_moves ht, advance]
      obtain ⟨hnone, hsame⟩ | ⟨m, hfound, hgap, hadded⟩ := intervals_forward_concat ht
      · rw [hnone, hsame, ← ih]
      · have hnonneg := estimateOf_nonneg (intervals_forward_pos ts)
        rw [hfound, hadded, estimateOf_concat, ih]
        exact smooth_eq_blend hnonneg _
  | stays ts t ht ih => rw [after_concat_of_not_moves ht, forward_concat_of_not_moves ht, ih]

/-! ## Forward timestamps alone count -/

/-- What the estimator makes of timestamps in any order. -/
structure CountsForwardOnly (ts : List Float) : Prop where
  /-- A timestamp that does not move forward gets the estimate that was there before it. -/
  skipped : ∀ t, ¬MovesForward ts t → (after ts).tick t = after ts
  /-- Without those that do not move forward everything later is the same. -/
  deleted : ∀ later, after (forward ts ++ later) = after (ts ++ later)
  latest : RemembersLatest ts (after ts).latest
  increasing : (forward ts).Pairwise (· < ·)
  estimate : (after ts).fps = estimateOf (intervals (forward ts))

theorem countsForwardOnly (ts : List Float) : CountsForwardOnly ts where
  skipped _ ht := tick_of_not_moves (remembersLatest_after ts) ht
  deleted later := by rw [after_append, after_forward, ← after_append]
  latest := remembersLatest_after ts
  increasing := pairwise_forward ts
  estimate := fps_after ts

/-- One more interval, with its weight divided by the interval instead of its rate weighted. -/
def blendAtOnce (fps interval : Float) : Float :=
  if fps == 0 then 1 / interval else 0.9 * fps + 0.1 / interval

def DividesAtOnce : Prop :=
  ∀ ts, (after ts).fps = (intervals (forward ts)).foldl blendAtOnce 0

/-- The rate is rounded before it is weighted. -/
theorem not_dividesAtOnce : ¬DividesAtOnce := by
  intro hestimate
  have hbits := congrArg Float.toBits (hestimate [0, 1, 1.1])
  exact absurd hbits (by decide +kernel)

end FrameRate

namespace Pipeline

def timestampsOf (frames : List Frame) : List Float :=
  frames.filterMap (·.timestamp)

theorem timestampsOf_concat (frames : List Frame) (f : Frame) :
    timestampsOf (frames ++ [f]) = timestampsOf frames ++ f.timestamp.toList := by
  cases ht : f.timestamp <;> simp [timestampsOf, ht]

variable {settings : RiskSettings} {capacity : Nat} {frames : List Frame} {n : Nat}

theorem fpsSource_after (p : Pipeline) (frames : List Frame) :
    (p.after frames).fpsSource = p.fpsSource := by
  induction frames using List.reverseRecOn with
  | nil => rfl
  | append_singleton frames f ih =>
      rw [after_concat, ← ih]
      rfl

/-- The estimator of a pipeline has been given the timestamps of its frames. -/
theorem frameRate_after (settings : RiskSettings) (capacity : Nat) (frames : List Frame) :
    ((new settings .timestamps capacity).after frames).frameRate =
      FrameRate.after (timestampsOf frames) := by
  induction frames using List.reverseRecOn with
  | nil => rfl
  | append_singleton frames f ih =>
      rw [after_concat, step_frameRate, timestampsOf_concat]
      unfold rateAfter
      rw [fpsSource_after, ih]
      cases f.timestamp with
      | none => rw [Option.toList_none, List.append_nil]; rfl
      | some t => rw [Option.toList_some, FrameRate.after_concat]; rfl

theorem rateAfter_after {f : Frame} (hf : frames[n]? = some f) :
    ((new settings .timestamps capacity).after (frames.take n)).rateAfter f.timestamp =
      FrameRate.after (timestampsOf (frames.take (n + 1))) := by
  rw [← step_frameRate, ← after_concat, ← frameRate_after settings capacity, List.take_add_one, hf,
    Option.toList_some]

theorem fps_of_getElem?_assessments {a : FrameAssessment}
    (ha : ((new settings .timestamps capacity).assessments frames)[n]? = some a) :
    a.fps = (FrameRate.after (timestampsOf (frames.take (n + 1)))).fps := by
  rw [assessments, List.getElem?_map, Option.map_eq_some_iff] at ha
  obtain ⟨taken, htaken, rfl⟩ := ha
  obtain ⟨f, hf, rfl⟩ := exists_step_of_getElem?_run htaken
  rw [step_fps, fpsOf, fpsSource_after, rateAfter_after hf]
  rfl

structure ReportsEstimates (p : Pipeline) (frames : List Frame) : Prop where
  /-- A frame has the estimate for the timestamps up to it. -/
  reported : ∀ n a, (p.assessments frames)[n]? = some a →
    a.fps = (FrameRate.after (timestampsOf (frames.take (n + 1)))).fps
  /-- A frame without a timestamp repeats the value of the frame before it. -/
  repeated : ∀ n f a next, frames[n + 1]? = some f → f.timestamp = none →
    (p.assessments frames)[n]? = some a → (p.assessments frames)[n + 1]? = some next →
      next.fps = a.fps

theorem reportsEstimates_new (settings : RiskSettings) (capacity : Nat) (frames : List Frame) :
    (new settings .timestamps capacity).ReportsEstimates frames where
  reported _ _ := fps_of_getElem?_assessments
  repeated n f a next hf hnone ha hnext := by
    rw [fps_of_getElem?_assessments ha, fps_of_getElem?_assessments hnext, List.take_add_one, hf,
      Option.toList_some, timestampsOf_concat, hnone, Option.toList_none, List.append_nil]

end Pipeline

/-- Only timestamps that move forward count, for the estimator and for what a pipeline reports. -/
theorem only_forward_timestamps_count
    {settings : RiskSettings} {capacity : Nat} {p : Pipeline}
    (hnew : Pipeline.ofSettings settings .timestamps capacity = .ok p) (frames : List Frame) :
    (∀ ts, FrameRate.CountsForwardOnly ts) ∧ p.ReportsEstimates frames := by
  obtain ⟨-, rfl⟩ := Pipeline.ofSettings_eq_ok_iff.mp hnew
  exact ⟨FrameRate.countsForwardOnly, Pipeline.reportsEstimates_new settings capacity frames⟩

/-- A stream with missing, repeated and earlier timestamps and one that is not a number. -/
def mixedFrames : List Frame :=
  [none, some 0, some (0 / 0), some 0.5, some 0.25, some 0.5, none, some 1].map fun timestamp =>
    ⟨⟨640, 480⟩, timestamp, []⟩

theorem only_forward_timestamps_count_mixed :
    Pipeline.ofSettings .default .timestamps 1 = .ok (.new .default .timestamps 1) ∧
      (FrameRate.forward (Pipeline.timestampsOf mixedFrames)).map Float.toBits =
        [0, 0.5, 1].map Float.toBits ∧
      (∀ ts, FrameRate.CountsForwardOnly ts) ∧
      (Pipeline.new .default .timestamps 1).ReportsEstimates mixedFrames :=
  ⟨Pipeline.ofSettings_default _ _, by decide +kernel,
    only_forward_timestamps_count (Pipeline.ofSettings_default _ _) mixedFrames⟩

end ObstacleWatch
