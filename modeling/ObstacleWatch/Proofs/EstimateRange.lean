import ObstacleWatch.Proofs.ForwardTimestamps
import ObstacleWatch.Proofs.TrackWindow
import ObstacleWatch.Proofs.UnusableRate

/-!
# The range of the frame rate

The estimate is never negative and always a number.  It is infinite as soon as one interval is so
short that its rate overflows, that is at most 2⁻¹⁰²⁴ seconds long, and stays so, because it is
blended with itself.  No closing rate is told from then on.  As long as all intervals are longer, the
estimate stays below the rate of the shortest of them.
-/

namespace ObstacleWatch

namespace FrameRate

variable {ts : List Float} {fps gap : Float} {gaps : List Float}

/-! ## Rates of short intervals -/

/-- The longest interval whose rate overflows. -/
def overflowInterval : Float := .ofBits 0x0004000000000000

/-- The next longer one. -/
def leastInterval : Float := .ofBits 0x0004000000000001

def greatestRate : Float := 1 / leastInterval

theorem realValue_leastInterval :
    realValue leastInterval = realValue overflowInterval + leastDouble := by
  have hlong : realValue overflowInterval = (2 ^ 50 : ℕ) * 2 ^ (-1074 : ℤ) :=
    realValue_of_unpack rfl
  have hnext : realValue leastInterval = (2 ^ 50 + 1 : ℕ) * 2 ^ (-1074 : ℤ) :=
    realValue_of_unpack rfl
  rw [hlong, hnext, leastDouble]
  push_cast
  ring

theorem leastInterval_le (hgap : overflowInterval < gap) : leastInterval ≤ gap :=
  float_le_of_lt_of_next rfl rfl realValue_leastInterval hgap

theorem isWithin_rate (hgap : overflowInterval < gap) : IsWithin greatestRate (1 / gap) := by
  have hone : (1 : Float) ≤ 1 := float_le_refl isNumber_one
  have hleast : 0 < leastInterval := by decide +kernel
  have hle := leastInterval_le hgap
  exact ⟨float_div_nonneg (by decide +kernel) (float_lt_of_lt_of_le hleast hle) (.inl rfl),
    float_div_le_div (by decide +kernel) hone rfl hleast hle, by decide +kernel⟩

theorem isFinite_rate_iff (hgap : 0 < gap) :
    (1 / gap).isFinite = true ↔ overflowInterval < gap := by
  refine ⟨fun hfinite => ?_, fun hlong => (isWithin_rate hlong).isFinite⟩
  by_contra hshort
  have hle := float_le_of_not_lt (.of_isFinite rfl) (.right_of_lt hgap) hshort
  have hoverflow : 1 / overflowInterval ≤ 1 / gap :=
    float_div_le_div (by decide +kernel) (float_le_refl isNumber_one) rfl hgap hle
  have hinfinite := isFinite_of_nonneg_of_le (by decide +kernel) hoverflow hfinite
  exact absurd hinfinite (by decide +kernel)

/-! ## The estimate -/

theorem isFinite_of_blend (hfinite : (blend fps gap).isFinite = true) :
    fps.isFinite = true ∧ (1 / gap).isFinite = true := by
  unfold blend at hfinite
  split at hfinite
  · next hzero =>
      obtain ⟨hnumber, -, hvalue⟩ := beq_iff_value.mp hzero
      rw [value_zero] at hvalue
      exact ⟨isFinite_iff.mpr ⟨hnumber, by simp [hvalue], by simp [hvalue]⟩, hfinite⟩
  · obtain ⟨hkept, hadded⟩ := isFinite_of_add hfinite
    exact ⟨(isFinite_of_mul hkept).2, (isFinite_of_mul hadded).2⟩

theorem isWithin_blend (hfps : IsWithin greatestRate fps) (hgap : overflowInterval < gap) :
    IsWithin greatestRate (blend fps gap) := by
  have hrate := isWithin_rate hgap
  unfold blend
  split
  · exact hrate
  · have hkept : IsWithin (0.9 * greatestRate) (0.9 * fps) :=
      (isWithin_self (by decide +kernel) rfl).mul hfps
        (float_le_refl (.of_isFinite (by decide +kernel))) (by decide +kernel)
    have hadded : IsWithin (0.1 * greatestRate) (0.1 * (1 / gap)) :=
      (isWithin_self (by decide +kernel) rfl).mul hrate
        (float_le_refl (.of_isFinite (by decide +kernel))) (by decide +kernel)
    exact hkept.add hadded (by decide +kernel) (by decide +kernel)

theorem isWithin_estimateOf (hgaps : ∀ gap ∈ gaps, overflowInterval < gap) :
    IsWithin greatestRate (estimateOf gaps) := by
  induction gaps using List.reverseRecOn with
  | nil => exact ⟨float_le_refl isNumber_zero, by decide +kernel, by decide +kernel⟩
  | append_singleton gaps gap ih =>
      obtain ⟨hearlier, hgap⟩ := List.forall_mem_append.mp hgaps
      rw [estimateOf_concat]
      exact isWithin_blend (ih hearlier) (List.forall_mem_singleton.mp hgap)

theorem isFinite_estimateOf_iff (hgaps : ∀ gap ∈ gaps, 0 < gap) :
    (estimateOf gaps).isFinite = true ↔ ∀ gap ∈ gaps, overflowInterval < gap := by
  refine ⟨fun hfinite => ?_, fun hlong => (isWithin_estimateOf hlong).isFinite⟩
  induction gaps using List.reverseRecOn with
  | nil => exact nofun
  | append_singleton gaps gap ih =>
      obtain ⟨hearlier, hgap⟩ := List.forall_mem_append.mp hgaps
      rw [estimateOf_concat] at hfinite
      obtain ⟨hbefore, hrate⟩ := isFinite_of_blend hfinite
      have hlong := (isFinite_rate_iff (List.forall_mem_singleton.mp hgap)).mp hrate
      exact List.forall_mem_append.mpr ⟨ih hearlier hbefore, List.forall_mem_singleton.mpr hlong⟩

theorem intervals_forward_subset (ts later : List Float) :
    intervals (forward ts) ⊆ intervals (forward (ts ++ later)) := by
  induction later using List.reverseRecOn with
  | nil => rw [List.append_nil]; exact List.Subset.refl _
  | append_singleton later t ih =>
      rw [← List.append_assoc]
      by_cases ht : MovesForward (ts ++ later) t
      · obtain ⟨-, hsame⟩ | ⟨m, -, -, hadded⟩ := intervals_forward_concat ht
        · rwa [hsame]
        · rw [hadded]
          exact List.subset_append_of_subset_left _ ih
      · rwa [forward_concat_of_not_moves ht]

/-- What the estimate can be after some timestamps. -/
structure EstimateRange (ts : List Float) : Prop where
  nonneg : 0 ≤ (after ts).fps
  finite : (after ts).fps.isFinite = true ↔ ∀ gap ∈ intervals (forward ts), overflowInterval < gap
  bounded : (after ts).fps.isFinite = true → (after ts).fps ≤ greatestRate
  /-- No later timestamp brings an estimate back that has overflowed. -/
  stuck : ∀ later, (after ts).fps.isFinite = false → (after (ts ++ later)).fps.isFinite = false

theorem isFinite_after_iff (ts : List Float) :
    (after ts).fps.isFinite = true ↔ ∀ gap ∈ intervals (forward ts), overflowInterval < gap := by
  rw [fps_after]
  exact isFinite_estimateOf_iff (intervals_forward_pos ts)

theorem estimateRange (ts : List Float) : EstimateRange ts where
  nonneg := by
    rw [fps_after]
    exact estimateOf_nonneg (intervals_forward_pos ts)
  finite := isFinite_after_iff ts
  bounded hfinite := by
    rw [isFinite_after_iff] at hfinite
    rw [fps_after]
    exact (isWithin_estimateOf hfinite).le
  stuck later hinfinite := by
    rw [← Bool.not_eq_true] at hinfinite ⊢
    refine mt (fun hfinite => ?_) hinfinite
    rw [isFinite_after_iff] at hfinite ⊢
    exact fun gap hgap => hfinite gap (intervals_forward_subset ts later hgap)

def AlwaysUsable : Prop :=
  ∀ ts, 0 ≤ (after ts).fps ∧ (after ts).fps.isFinite = true

/-- A rate that overflows is taken over. -/
theorem not_alwaysUsable : ¬AlwaysUsable := by
  intro husable
  obtain ⟨-, hfinite⟩ := husable [0, 1e-309]
  exact absurd hfinite (by decide +kernel)

end FrameRate

/-! ## Frames of a pipeline -/

theorem unusableRate_of_not_isFinite {fps : Float} (hfps : 0 ≤ fps)
    (hinfinite : fps.isFinite = false) : UnusableRate fps := by
  refine .inr (.inl (isInf_iff.mpr ?_))
  by_contra hbounded
  push Not at hbounded
  have hfinite := isFinite_iff.mpr ⟨.right_of_le hfps, hbounded⟩
  rw [hinfinite] at hfinite
  contradiction

namespace Pipeline

theorem standsStill_of_step {p : Pipeline} {f : Frame}
    (hfps : UnusableRate (p.step f).outcome.assessment.fps) :
    ∀ o ∈ (p.step f).outcome.assessment.objects, StandsStill p.engine.settings o.metrics := by
  intro o ho
  rw [step_objects, List.mem_map] at ho
  obtain ⟨s, hs, rfl⟩ := ho
  rw [step_report, RiskEngine.step_sightings] at hs
  rw [step_fps] at hfps
  have hcontext : UnusableRate (p.engineFrame f).context.fps := hfps
  have hkept : KeptBySights p.engine.settings fun _ => True := fun _ _ _ _ _ => trivial
  obtain ⟨key, slot, -, hsight⟩ :=
    (hkept.sightAll (p.engineFrame f).context (fun _ _ _ => trivial) 0 _).2 s hs
  rw [hsight]
  exact slotSight_standsStill hcontext key slot s.detection

/-- What a run reports as frames per second, and what it does without. -/
structure ReportsEstimateRange (settings : RiskSettings) (p : Pipeline) (frames : List Frame) :
    Prop where
  nonneg : ∀ (n : Nat) (a : FrameAssessment), (p.assessments frames)[n]? = some a → 0 ≤ a.fps
  finite : ∀ (n : Nat) (a : FrameAssessment), (p.assessments frames)[n]? = some a →
    (a.fps.isFinite = true ↔
      ∀ gap ∈ FrameRate.intervals (FrameRate.forward (timestampsOf (frames.take (n + 1)))),
        FrameRate.overflowInterval < gap)
  /-- From a frame whose estimate has overflowed on, nothing moves. -/
  stuck : ∀ (n m : Nat) (a b : FrameAssessment), n ≤ m →
    (p.assessments frames)[n]? = some a → (p.assessments frames)[m]? = some b →
      a.fps.isFinite = false →
      b.fps.isFinite = false ∧ ∀ o ∈ b.objects, StandsStill settings o.metrics

variable {settings : RiskSettings} {capacity : Nat} {frames : List Frame} {n m : Nat}

theorem timestampsOf_take_of_le (hle : n ≤ m) (frames : List Frame) :
    ∃ later, timestampsOf (frames.take m) = timestampsOf (frames.take n) ++ later := by
  obtain ⟨later, hlater⟩ := (List.take_prefix_take_left hle (l := frames)).filterMap (·.timestamp)
  exact ⟨later, hlater.symm⟩

theorem reportsEstimateRange_new (settings : RiskSettings) (capacity : Nat)
    (frames : List Frame) :
    (new settings .timestamps capacity).ReportsEstimateRange settings frames where
  nonneg n a ha := by
    rw [fps_of_getElem?_assessments ha]
    exact (FrameRate.estimateRange _).nonneg
  finite n a ha := by
    rw [fps_of_getElem?_assessments ha]
    exact (FrameRate.estimateRange _).finite
  stuck n m a b hle ha hb hinfinite := by
    obtain ⟨later, hlater⟩ := timestampsOf_take_of_le (Nat.add_le_add_right hle 1) frames
    rw [fps_of_getElem?_assessments ha] at hinfinite
    have hstuck := (FrameRate.estimateRange _).stuck later hinfinite
    rw [← hlater, ← fps_of_getElem?_assessments hb] at hstuck
    have hnonneg : 0 ≤ b.fps := by
      rw [fps_of_getElem?_assessments hb]
      exact (FrameRate.estimateRange _).nonneg
    refine ⟨hstuck, ?_⟩
    rw [assessments, List.getElem?_map, Option.map_eq_some_iff] at hb
    obtain ⟨taken, htaken, rfl⟩ := hb
    obtain ⟨f, -, rfl⟩ := exists_step_of_getElem?_run htaken
    have hstill := standsStill_of_step (unusableRate_of_not_isFinite hnonneg hstuck)
    rwa [settings_after] at hstill

end Pipeline

/-- The estimate is a number that is not negative, and finite until an interval is too short for its
rate; from then on it is infinite and no object of a frame moves. -/
theorem estimate_finite_until_overflow
    {settings : RiskSettings} {capacity : Nat} {p : Pipeline}
    (hnew : Pipeline.ofSettings settings .timestamps capacity = .ok p) (frames : List Frame) :
    (∀ ts, FrameRate.EstimateRange ts) ∧ p.ReportsEstimateRange settings frames := by
  obtain ⟨-, rfl⟩ := Pipeline.ofSettings_eq_ok_iff.mp hnew
  exact ⟨FrameRate.estimateRange, Pipeline.reportsEstimateRange_new settings capacity frames⟩

/-- Two frames almost at once, and then two with a person who comes closer. -/
def overflowFrames : List Frame :=
  [⟨⟨640, 480⟩, some 0, []⟩, ⟨⟨640, 480⟩, some 1e-309, []⟩,
    ⟨⟨640, 480⟩, some 0.1, [⟨1, 0, "Person", 1, ⟨20, 100, 60, 160⟩⟩]⟩,
    ⟨⟨640, 480⟩, some 0.2, [⟨1, 0, "Person", 1, ⟨20, 100, 80, 300⟩⟩]⟩]

theorem estimate_finite_until_overflow_twoAtOnce :
    Pipeline.ofSettings .default .timestamps 1 = .ok (.new .default .timestamps 1) ∧
      ((Pipeline.new .default .timestamps 1).assessments overflowFrames).map (·.fps.isFinite) =
        [true, false, false, false] ∧
      (∀ ts, FrameRate.EstimateRange ts) ∧
      (Pipeline.new .default .timestamps 1).ReportsEstimateRange .default overflowFrames :=
  ⟨Pipeline.ofSettings_default _ _, by decide +kernel,
    estimate_finite_until_overflow (Pipeline.ofSettings_default _ _) overflowFrames⟩

end ObstacleWatch
