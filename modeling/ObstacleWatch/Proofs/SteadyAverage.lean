import ObstacleWatch.Proofs.ProxyAverage
import ObstacleWatch.Proofs.RoundingError
import ObstacleWatch.Proofs.UnusableRate

/-!
# The average of a proxy that stays the same

On paper the average of a constant is this constant.  Computed in doubles it may drift: a sum of two
rounded products need not round back to the proxy.  The drift goes one way, and the first step tells
which: a step of the average respects the order, so if the first step does not fall below the proxy
then no later step falls, and otherwise every step falls or stays.  Each fall is a few rounding
errors of the proxy.  It takes a fast stream to make a closing rate of that.
-/

namespace ObstacleWatch

namespace DistanceAverage

/-- The averages of a proxy that stays the same. -/
def steady (alpha x : Float) : Nat → Float
  | 0 => x
  | n + 1 => smooth alpha x (some (steady alpha x n))

/-- Rounding takes the first step of the average of a proxy below the proxy. -/
def SlipsBelow (alpha x : Float) : Prop :=
  smooth alpha x (some x) < x

instance (alpha x : Float) : Decidable (SlipsBelow alpha x) :=
  inferInstanceAs (Decidable (_ < _))

/-- The stream is slow enough, for the size of the proxy, that no rounding of an average counts as
motion.  Rates that are not usable are slow in this sense. -/
def HidesRounding (x fps : Float) : Prop :=
  UnusableRate fps ∨ x * fps ≤ 1e6

variable {alpha x a b fps before after : Float}

/-! ## The order of the averages -/

theorem isFinite_share (halpha : IsShare alpha) : alpha.isFinite = true :=
  isFinite_of_nonneg_of_le (float_le_of_lt halpha.1) halpha.2 rfl

theorem isFinite_rest (halpha : IsShare alpha) : (1 - alpha).isFinite = true := by
  have hle : 1 - alpha ≤ 1 - 0 :=
    float_sub_le_sub rfl rfl (float_le_refl rfl) (float_le_of_lt halpha.1)
  exact isFinite_of_nonneg_of_le halpha.rest_nonneg hle (by decide +kernel)

/-- The sample and the average so far both add to the next average. -/
theorem parts_nonneg (halpha : IsShare alpha) (hx : IsWithin proxyBound x) (ha : 0 ≤ a)
    (hfinite : a.isFinite = true) : 0 ≤ alpha * x ∧ 0 ≤ (1 - alpha) * a :=
  ⟨float_mul_nonneg_of_isFinite (float_le_of_lt halpha.1) hx.nonneg (isFinite_share halpha)
      hx.isFinite,
    float_mul_nonneg_of_isFinite halpha.rest_nonneg ha (isFinite_rest halpha) hfinite⟩

theorem smooth_le_smooth (halpha : IsShare alpha) (hx : IsWithin proxyBound x) (ha : 0 ≤ a)
    (hab : a ≤ b) (hb : b.isFinite = true) : smooth alpha x (some a) ≤ smooth alpha x (some b) := by
  obtain ⟨hnew, hold⟩ := parts_nonneg halpha hx ha (isFinite_of_nonneg_of_le ha hab hb)
  have hrest := float_le_refl (.right_of_le halpha.rest_nonneg)
  exact float_add_le_add hnew hold (float_le_refl (.right_of_le hnew))
    (float_mul_le_mul halpha.rest_nonneg ha hrest hab (isFinite_rest halpha) hb)

section Steady

variable (halpha : IsShare alpha) (hx : IsWithin proxyBound x)
include halpha hx

theorem isWithin_steady (n : Nat) : IsWithin averageBound (steady alpha x n) := by
  induction n with
  | zero => exact ⟨hx.nonneg, float_le_trans hx.le (by decide +kernel), by decide +kernel⟩
  | succ n ih => exact isWithin_smooth halpha hx ih

theorem steady_le_succ (hkeeps : ¬SlipsBelow alpha x) (n : Nat) :
    steady alpha x n ≤ steady alpha x (n + 1) := by
  have hwithin := isWithin_steady halpha hx
  induction n with
  | zero =>
      exact float_le_of_not_lt (.of_isFinite (hwithin 1).isFinite) (.of_isFinite hx.isFinite) hkeeps
  | succ n ih => exact smooth_le_smooth halpha hx (hwithin n).nonneg ih (hwithin (n + 1)).isFinite

theorem steady_succ_le (hslips : SlipsBelow alpha x) (n : Nat) :
    steady alpha x (n + 1) ≤ steady alpha x n := by
  have hwithin := isWithin_steady halpha hx
  induction n with
  | zero => exact float_le_of_lt hslips
  | succ n ih => exact smooth_le_smooth halpha hx (hwithin (n + 1)).nonneg ih (hwithin n).isFinite

theorem steady_le (hslips : SlipsBelow alpha x) (n : Nat) : steady alpha x n ≤ x := by
  induction n with
  | zero => exact float_le_refl (.of_isFinite hx.isFinite)
  | succ n ih => exact float_le_trans (steady_succ_le halpha hx hslips n) ih

end Steady

/-! ## Closing rates -/

theorem realValue_rate (hfinite : ((before - after) * fps).isFinite = true) :
    realValue ((before - after) * fps) =
      nearestDouble (nearestDouble (realValue before - realValue after) * realValue fps) := by
  rw [realValue_mul hfinite, realValue_sub (isFinite_of_mul hfinite).1]

theorem zero_le_realValue_of_leastFps_lt (hfps : leastFps < fps) : 0 ≤ realValue fps := by
  have hleast : 0 ≤ leastFps := by decide +kernel
  exact realValue_nonneg (float_le_trans hleast (float_le_of_lt hfps))

/-- A closing rate is zero or the drop per second, which is then positive. -/
theorem closingRate_cases (fps before after : Float) :
    closingRate fps before after = 0 ∨
      fps.isFinite = true ∧ leastFps < fps ∧ ((before - after) * fps).isFinite = true ∧
        0 < (before - after) * fps ∧
        closingRate fps before after = (before - after) * fps := by
  by_cases hfps : fps.isFinite = true ∧ leastFps < fps
  · rw [closingRate, if_pos hfps]
    by_cases hfinite : ((before - after) * fps).isFinite = true
    · rw [if_pos hfinite, atLeast]
      by_cases hpos : 0 < (before - after) * fps
      · rw [if_pos hpos]
        exact .inr ⟨hfps.1, hfps.2, hfinite, hpos, rfl⟩
      · exact .inl (if_neg hpos)
    · exact .inl (if_neg hfinite)
  · exact .inl (if_neg hfps)

/-- An average that does not fall has no closing rate. -/
theorem closingRate_of_le (hle : before ≤ after) (fps : Float) :
    closingRate fps before after = 0 := by
  rcases closingRate_cases fps before after with hzero | ⟨-, hfps, hfinite, hpos, -⟩
  · exact hzero
  · obtain ⟨hbefore, hafter⟩ := isFinite_of_sub (isFinite_of_mul hfinite).1
    have hdrop : realValue before - realValue after ≤ 0 :=
      sub_nonpos.mpr ((realValue_le_iff hbefore hafter).mpr hle)
    have hgap : nearestDouble (realValue before - realValue after) ≤ 0 := by
      simpa using nearestDouble_mono hdrop
    have hrate : realValue ((before - after) * fps) ≤ realValue 0 := by
      rw [realValue_rate hfinite, realValue_zero, ← nearestDouble_zero]
      exact nearestDouble_mono
        (mul_nonpos_of_nonpos_of_nonneg hgap (zero_le_realValue_of_leastFps_lt hfps))
    exact absurd ((realValue_le_iff hfinite rfl).mp hrate) (float_not_le_of_lt hpos)

/-! ## How far a step can fall -/

/-- Four roundings of a weighted sum take it at most three relative errors below the smaller of its
parts, apart from underflow. -/
theorem sub_le_of_rounded_average {w v p q r A X : ℝ} (hw : 0 ≤ w) (hw' : w ≤ 1) (hA : 0 ≤ A)
    (hAX : A ≤ X) (hp : w * X - (unitRoundoff * (w * X) + underflowError) ≤ p)
    (hv : (1 - w) - (unitRoundoff * (1 - w) + underflowError) ≤ v)
    (hq : v * A - (unitRoundoff * (v * A) + underflowError) ≤ q)
    (hr : p + q - (unitRoundoff * (p + q) + underflowError) ≤ r) :
    A - r ≤ (3 * unitRoundoff + underflowError) * X + 3 * underflowError := by
  have hu := unitRoundoff_pos
  have hu' : unitRoundoff ≤ 1 := by
    rw [unitRoundoff]
    norm_num
  have hη := underflowError_pos
  generalize unitRoundoff = u at *
  generalize underflowError = η at *
  have hp' : (1 - u) * (w * A) - η ≤ p := by
    have hwA : w * A ≤ w * X := mul_le_mul_of_nonneg_left hAX hw
    have := mul_le_mul_of_nonneg_left hwA (sub_nonneg.mpr hu')
    linarith
  have hvA : ((1 - u) * (1 - w) - η) * A ≤ v * A := by
    refine mul_le_mul_of_nonneg_right ?_ hA
    linarith
  have hq' : (1 - u) * (((1 - u) * (1 - w) - η) * A) - η ≤ q := by
    have := mul_le_mul_of_nonneg_left hvA (sub_nonneg.mpr hu')
    linarith
  have hsum : (1 - 2 * u - η) * A - 2 * η ≤ p + q := by
    have hparts : 1 - 2 * u - η ≤ (1 - u) * w + (1 - u) * ((1 - u) * (1 - w) - η) := by
      have hnonneg : 0 ≤ u * w + u ^ 2 * (1 - w) + u * η := by
        have := sub_nonneg.mpr hw'
        positivity
      linarith
    have := mul_le_mul_of_nonneg_right hparts hA
    linarith
  have hr' : (1 - 3 * u - η) * A - 3 * η ≤ r := by
    have hsmall : (1 - 2 * u - η) * A - 2 * η ≤ A := by
      have : 0 ≤ (2 * u + η) * A := by positivity
      linarith
    have hscaled := mul_le_mul_of_nonneg_left hsum (sub_nonneg.mpr hu')
    have hlost := mul_le_mul_of_nonneg_left hsmall hu.le
    linarith
  have hend : (3 * u + η) * A ≤ (3 * u + η) * X := mul_le_mul_of_nonneg_left hAX (by positivity)
  linarith

theorem sub_realValue_smooth_le (halpha : IsShare alpha) (hx : IsWithin proxyBound x)
    (ha : 0 ≤ a) (hax : a ≤ x) :
    realValue a - realValue (smooth alpha x (some a)) ≤
      (3 * unitRoundoff + underflowError) * realValue x + 3 * underflowError := by
  have hafinite := isFinite_of_nonneg_of_le ha hax hx.isFinite
  have hwithin : IsWithin averageBound a :=
    ⟨ha, float_le_trans hax (float_le_trans hx.le (by decide +kernel)), by decide +kernel⟩
  have hsum : (alpha * x + (1 - alpha) * a).isFinite = true :=
    (isWithin_smooth halpha hx hwithin).isFinite
  obtain ⟨hnew, hold⟩ := isFinite_of_add hsum
  obtain ⟨hnew_nonneg, hold_nonneg⟩ := parts_nonneg halpha hx ha hafinite
  have hw : 0 ≤ realValue alpha := realValue_nonneg (float_le_of_lt halpha.1)
  have hw' : realValue alpha ≤ 1 := by
    rw [← realValue_one]
    exact (realValue_le_iff (isFinite_share halpha) rfl).mpr halpha.2
  have hA := realValue_nonneg ha
  have hAX := (realValue_le_iff hafinite hx.isFinite).mpr hax
  have hv := realValue_nonneg halpha.rest_nonneg
  have hp := realValue_nonneg hnew_nonneg
  have hq := realValue_nonneg hold_nonneg
  have hsub : realValue (1 - alpha) = nearestDouble (1 - realValue alpha) := by
    rw [realValue_sub (isFinite_rest halpha), realValue_one]
  refine sub_le_of_rounded_average (w := realValue alpha) (v := realValue (1 - alpha))
    (p := realValue (alpha * x)) (q := realValue ((1 - alpha) * a)) hw hw' hA hAX ?_ ?_ ?_ ?_
  · rw [realValue_mul hnew]
    exact sub_le_nearestDouble (mul_nonneg hw (hA.trans hAX))
  · rw [hsub]
    exact sub_le_nearestDouble (sub_nonneg.mpr hw')
  · rw [realValue_mul hold]
    exact sub_le_nearestDouble (mul_nonneg hv hA)
  · rw [smooth, realValue_add hsum]
    exact sub_le_nearestDouble (add_nonneg hp hq)

/-! ## Slow streams -/

theorem realValue_mul_le (hx : IsWithin proxyBound x) (hfps : leastFps < fps)
    (hfinite : fps.isFinite = true) (hslow : x * fps ≤ 1e6) :
    realValue x * realValue fps ≤ 2 ^ (20 : ℤ) := by
  have hleast : 0 ≤ leastFps := by decide +kernel
  have hpos : 0 ≤ fps := float_le_trans hleast (float_le_of_lt hfps)
  have hproduct : (x * fps).isFinite = true :=
    isFinite_of_nonneg_of_le (float_mul_nonneg_of_isFinite hx.nonneg hpos hx.isFinite hfinite)
      hslow (by decide +kernel)
  have hpower : realValue (Float.ofBits 0x4130000000000000) = 2 ^ (52 + -32 : ℤ) :=
    realValue_ofBits rfl
  have hself : nearestDouble (2 ^ (20 : ℤ)) = 2 ^ (20 : ℤ) := by
    simpa using nearestDouble_of_lt (n := 1) (e := 20) (by norm_num) (by norm_num)
  by_contra hfast
  have hreach : Float.ofBits 0x4130000000000000 ≤ x * fps := by
    rw [← realValue_le_iff (by decide +kernel) hproduct, hpower, realValue_mul hproduct]
    calc (2 : ℝ) ^ (52 + -32 : ℤ) = nearestDouble (2 ^ (20 : ℤ)) := hself.symm
      _ ≤ nearestDouble (realValue x * realValue fps) := nearestDouble_mono (le_of_not_ge hfast)
  have hbeyond : (1e6 : Float) < Float.ofBits 0x4130000000000000 := by decide +kernel
  exact float_not_le_of_lt (float_lt_of_lt_of_le hbeyond hreach) hslow

/-- The fall of one step is small even per second, if the stream is slow. -/
theorem nearestDouble_fall_mul_le {X F : ℝ} (hX : 0 ≤ X) (hF : 0 ≤ F)
    (hslow : X * F ≤ 2 ^ (20 : ℤ)) (hbelow : F < overflowBound) :
    nearestDouble (nearestDouble ((3 * unitRoundoff + underflowError) * X + 3 * underflowError) *
      F) ≤ 2 ^ (-30 : ℤ) := by
  have hu := unitRoundoff_pos
  have hη := underflowError_pos
  have hη_le : underflowError ≤ unitRoundoff := zpow_le_zpow_right₀ one_le_two (by norm_num)
  have hfall : ((3 * unitRoundoff + underflowError) * X + 3 * underflowError) * F ≤
      4 * unitRoundoff * 2 ^ (20 : ℤ) + 3 * 2 ^ (-51 : ℤ) := by
    have hXF : 0 ≤ X * F := mul_nonneg hX hF
    have hcoefficient := mul_le_mul_of_nonneg_right hη_le hXF
    have hspeed := mul_le_mul_of_nonneg_left hslow hu.le
    have hunderflow := underflowError_mul_le hbelow
    calc ((3 * unitRoundoff + underflowError) * X + 3 * underflowError) * F
        = 3 * (unitRoundoff * (X * F)) + underflowError * (X * F) + 3 * (underflowError * F) := by
          ring
      _ ≤ 4 * unitRoundoff * 2 ^ (20 : ℤ) + 3 * 2 ^ (-51 : ℤ) := by linarith
  refine (nearestDouble_rate_le (by positivity) hF hbelow hfall).trans ?_
  rw [unitRoundoff]
  norm_num

/-- On a slow stream one step of the average falls too little to count as closing. -/
theorem closingRate_smooth_le (halpha : IsShare alpha) (hx : IsWithin proxyBound x)
    (ha : 0 ≤ a) (hax : a ≤ x) (hhides : HidesRounding x fps) :
    closingRate fps a (smooth alpha x (some a)) ≤ leastClosingRate := by
  have hleast : 0 ≤ leastClosingRate := by decide +kernel
  rcases closingRate_cases fps a (smooth alpha x (some a)) with
    hzero | ⟨hfinite, hfps, hrate, -, heq⟩
  · rw [hzero]
    exact hleast
  have husable : ¬UnusableRate fps := fun h => h.not_usable ⟨hfinite, hfps⟩
  have hslow := realValue_mul_le hx hfps hfinite (hhides.resolve_left husable)
  have hpower : realValue (Float.ofBits 0x3E10000000000000) = 2 ^ (52 + -82 : ℤ) :=
    realValue_ofBits rfl
  have hF := zero_le_realValue_of_leastFps_lt hfps
  have hbelow : Float.ofBits 0x3E10000000000000 ≤ leastClosingRate := by decide +kernel
  rw [heq]
  refine float_le_trans ?_ hbelow
  rw [← realValue_le_iff hrate (by decide +kernel), hpower, realValue_rate hrate]
  calc nearestDouble (nearestDouble (realValue a - realValue (smooth alpha x (some a))) *
        realValue fps)
      ≤ nearestDouble (nearestDouble ((3 * unitRoundoff + underflowError) * realValue x +
          3 * underflowError) * realValue fps) := by
        refine nearestDouble_mono (mul_le_mul_of_nonneg_right (nearestDouble_mono ?_) hF)
        exact sub_realValue_smooth_le halpha hx ha hax
    _ ≤ 2 ^ (-30 : ℤ) :=
        nearestDouble_fall_mul_le (realValue_nonneg hx.nonneg) hF hslow
          (realValue_lt_overflowBound hfinite)

section Steady

variable (halpha : IsShare alpha) (hx : IsWithin proxyBound x)
include halpha hx

theorem closingRate_steady (hkeeps : ¬SlipsBelow alpha x) (fps : Float) (n : Nat) :
    closingRate fps (steady alpha x n) (steady alpha x (n + 1)) = 0 :=
  closingRate_of_le (steady_le_succ halpha hx hkeeps n) fps

theorem closingRate_steady_le (hhides : HidesRounding x fps) (n : Nat) :
    closingRate fps (steady alpha x n) (steady alpha x (n + 1)) ≤ leastClosingRate := by
  by_cases hslips : SlipsBelow alpha x
  · exact closingRate_smooth_le halpha hx (isWithin_steady halpha hx n).nonneg
      (steady_le halpha hx hslips n) hhides
  · rw [closingRate_steady halpha hx hslips]
    exact by decide +kernel

end Steady

end DistanceAverage

end ObstacleWatch
