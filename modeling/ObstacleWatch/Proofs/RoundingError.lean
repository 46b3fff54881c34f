import ObstacleWatch.Proofs.EdgeRange

/-!
# The error of one rounding

The nearest double is at most half a last place away.  Relative to the number that is one part in
`2 ^ 53`, and for the smallest numbers, which share one last place, at most `2 ^ -1075`.  A finite
double has a real value, and the real value of a finite result is the exact result up to one such
error.
-/

namespace ObstacleWatch

open Float.Model.UnpackedFloat

/-! ## Rounding real numbers -/

theorem unitRoundoff_pos : 0 < unitRoundoff := zpow_pos two_pos _

theorem underflowError_pos : 0 < underflowError := zpow_pos two_pos _

theorem abs_nearestInt_sub_le (x : ℝ) : |(nearestInt x : ℝ) - x| ≤ 1 / 2 := by
  have hfract := Int.floor_add_fract x
  have hnonneg := Int.fract_nonneg x
  have hlt := Int.fract_lt_one x
  rw [abs_le]
  unfold nearestInt
  split_ifs <;> push_cast <;> constructor <;> linarith

theorem abs_nearestDouble_sub_le_half (x : ℝ) :
    |nearestDouble x - x| ≤ 2 ^ unitExponent x / 2 := by
  have hpos : (0 : ℝ) < 2 ^ unitExponent x := zpow_pos two_pos _
  have hscaled := abs_nearestInt_sub_le (x / 2 ^ unitExponent x)
  calc |nearestDouble x - x|
      = |(nearestInt (x / 2 ^ unitExponent x) - x / 2 ^ unitExponent x) * 2 ^ unitExponent x| := by
        rw [nearestDouble, sub_mul, div_mul_cancel₀ x hpos.ne']
    _ = |(nearestInt (x / 2 ^ unitExponent x) : ℝ) - x / 2 ^ unitExponent x| *
          2 ^ unitExponent x := by
        rw [abs_mul, abs_of_pos hpos]
    _ ≤ 1 / 2 * 2 ^ unitExponent x := mul_le_mul_of_nonneg_right hscaled hpos.le
    _ = 2 ^ unitExponent x / 2 := by ring

theorem nearestInt_le_of_lt {x : ℝ} {n : ℤ} (hx : x < n + 1 / 2) : nearestInt x ≤ n := by
  have hclose := (abs_le.mp (abs_nearestInt_sub_le x)).2
  have hlt : (nearestInt x : ℝ) < n + 1 := by linarith
  exact Int.lt_add_one_iff.mp (by exact_mod_cast hlt)

/-- Half a last place below one is too little to leave one. -/
theorem nearestDouble_le_one {x : ℝ} (hx : x < 1 + 2 ^ (-53 : ℤ)) : nearestDouble x ≤ 1 := by
  rcases le_or_gt x 1 with hle | hlt
  · have hone : nearestDouble 1 = 1 := by
      simpa using nearestDouble_of_lt (n := 1) (e := 0) (by norm_num) (by norm_num)
    exact (nearestDouble_mono hle).trans_eq hone
  · have hlog : Int.log 2 |x| = 0 := by
      rw [abs_of_pos (one_pos.trans hlt)]
      refine log_two_eq (by simpa using hlt.le) ?_
      norm_num at hx ⊢
      linarith
    have hunit : unitExponent x = -52 := by
      rw [unitExponent, hlog]
      rfl
    have hscaled : nearestInt (x / 2 ^ unitExponent x) ≤ 2 ^ 52 := by
      refine nearestInt_le_of_lt ?_
      rw [hunit, div_lt_iff₀ (by positivity)]
      norm_num at hx ⊢
      linarith
    rw [nearestDouble]
    calc (nearestInt (x / 2 ^ unitExponent x) : ℝ) * 2 ^ unitExponent x
        ≤ (2 ^ 52 : ℤ) * 2 ^ unitExponent x :=
          mul_le_mul_of_nonneg_right (by exact_mod_cast hscaled) (by positivity)
      _ = 1 := by
          rw [hunit]
          norm_num

/-- Half a last place is a small part of the number, or of the last place of the smallest ones. -/
theorem zpow_unitExponent_div_two_le {x : ℝ} (hx : 0 < x) :
    2 ^ unitExponent x / 2 ≤ unitRoundoff * x + underflowError := by
  by_cases hunit : unitExponent x = -1074
  · have hunderflow : (2 : ℝ) ^ unitExponent x / 2 = underflowError := by
      rw [hunit, underflowError, div_eq_mul_inv, ← zpow_sub_one₀ two_ne_zero]
      rfl
    rw [hunderflow]
    exact le_add_of_nonneg_left (mul_nonneg unitRoundoff_pos.le hx.le)
  · have hle := zpow_unitExponent_le hx hunit
    have hroundoff : (2 : ℝ) ^ unitExponent x / 2 =
        unitRoundoff * 2 ^ (unitExponent x + 52) := by
      rw [unitRoundoff, ← zpow_add₀ two_ne_zero, div_eq_mul_inv, ← zpow_sub_one₀ two_ne_zero]
      congr 1
      ring
    calc (2 : ℝ) ^ unitExponent x / 2 = unitRoundoff * 2 ^ (unitExponent x + 52) := hroundoff
      _ ≤ unitRoundoff * x := mul_le_mul_of_nonneg_left hle unitRoundoff_pos.le
      _ ≤ unitRoundoff * x + underflowError := le_add_of_nonneg_right underflowError_pos.le

theorem abs_nearestDouble_sub_le {x : ℝ} (hx : 0 ≤ x) :
    |nearestDouble x - x| ≤ unitRoundoff * x + underflowError := by
  rcases hx.eq_or_lt with rfl | hpos
  · simpa using underflowError_pos.le
  · exact (abs_nearestDouble_sub_le_half x).trans (zpow_unitExponent_div_two_le hpos)

theorem nearestDouble_le_add {x : ℝ} (hx : 0 ≤ x) :
    nearestDouble x ≤ x + (unitRoundoff * x + underflowError) :=
  le_add_of_sub_left_le (abs_le.mp (abs_nearestDouble_sub_le hx)).2

theorem sub_le_nearestDouble {x : ℝ} (hx : 0 ≤ x) :
    x - (unitRoundoff * x + underflowError) ≤ nearestDouble x := by
  have hlow := (abs_le.mp (abs_nearestDouble_sub_le hx)).1
  linarith

/-! ### Products with a frame rate

The bounds here are crude, since what they are needed for has room. -/

theorem nearestDouble_le_quarter_more {y : ℝ} (hy : 0 ≤ y) :
    nearestDouble y ≤ 5 / 4 * y + underflowError := by
  have hle := nearestDouble_le_add hy
  have hu : unitRoundoff * y ≤ 1 / 4 * y := by
    refine mul_le_mul_of_nonneg_right ?_ hy
    rw [unitRoundoff]
    norm_num
  linarith

theorem underflowError_mul_le {F : ℝ} (hbelow : F < overflowBound) :
    underflowError * F ≤ 2 ^ (-51 : ℤ) := by
  have hpower : underflowError * overflowBound = 2 ^ (-51 : ℤ) := by
    rw [underflowError, overflowBound, ← zpow_add₀ two_ne_zero]
    norm_num
  exact hpower ▸ mul_le_mul_of_nonneg_left hbelow.le underflowError_pos.le

/-- A drop and its product with a frame rate are rounded once each. -/
theorem nearestDouble_rate_le {y F bound : ℝ} (hy : 0 ≤ y) (hF : 0 ≤ F) (hbelow : F < overflowBound)
    (hbound : y * F ≤ bound) :
    nearestDouble (nearestDouble y * F) ≤ 25 / 16 * bound + 2 ^ (-50 : ℤ) := by
  have hdrop : nearestDouble y * F ≤ 5 / 4 * bound + 2 ^ (-51 : ℤ) := by
    have hscaled := mul_le_mul_of_nonneg_right (nearestDouble_le_quarter_more hy) hF
    have hunderflow := underflowError_mul_le hbelow
    calc nearestDouble y * F ≤ (5 / 4 * y + underflowError) * F := hscaled
      _ = 5 / 4 * (y * F) + underflowError * F := by ring
      _ ≤ 5 / 4 * bound + 2 ^ (-51 : ℤ) :=
        add_le_add (mul_le_mul_of_nonneg_left hbound (by norm_num)) hunderflow
  have hrate := nearestDouble_le_quarter_more (mul_nonneg (nearestDouble_nonneg hy) hF)
  have hunderflow : underflowError ≤ 2 ^ (-53 : ℤ) := zpow_le_zpow_right₀ one_le_two (by norm_num)
  norm_num at hdrop hunderflow ⊢
  linarith

/-! ## Real values of doubles -/

/-- The value of a finite double as a real number. -/
noncomputable def realValue (x : Float) : ℝ :=
  (value x).toReal

variable {a b : Float}

theorem coe_realValue (ha : a.isFinite = true) : (realValue a : EReal) = value a := by
  obtain ⟨-, htop, hbot⟩ := isFinite_iff.mp ha
  exact EReal.coe_toReal htop hbot

@[simp] theorem realValue_zero : realValue 0 = 0 := by
  rw [realValue, value_zero, EReal.toReal_zero]

@[simp] theorem realValue_one : realValue 1 = 1 := by
  rw [realValue, value_one, EReal.toReal_one]

theorem realValue_nonneg (ha : 0 ≤ a) : 0 ≤ realValue a :=
  EReal.toReal_nonneg (nonneg_iff_value.mp ha).2

theorem realValue_le_iff (ha : a.isFinite = true) (hb : b.isFinite = true) :
    realValue a ≤ realValue b ↔ a ≤ b := by
  rw [le_iff_value, ← coe_realValue ha, ← coe_realValue hb, EReal.coe_le_coe_iff]
  exact ⟨fun h => ⟨.of_isFinite ha, .of_isFinite hb, h⟩, fun h => h.2.2⟩

theorem realValue_lt_overflowBound (ha : a.isFinite = true) : realValue a < overflowBound := by
  obtain ⟨-, htop, -⟩ := isFinite_iff.mp ha
  have hself : rounded (value a) = value a := rounded_value a
  rw [← coe_realValue ha, rounded_coe] at hself
  have hfits : ¬overflowBound ≤ nearestDouble (realValue a) := by
    intro hlarge
    rw [overflow, if_pos hlarge] at hself
    exact htop ((coe_realValue ha).symm.trans hself.symm)
  rw [overflow, if_neg hfits] at hself
  split_ifs at hself with hsmall
  · exact absurd hself (EReal.coe_ne_bot _).symm
  · rw [← EReal.coe_eq_coe_iff.mp hself]
    exact lt_of_not_ge hfits

/-- A finite result is the nearest double to the exact one. -/
theorem realValue_of_rounded {y : ℝ} (ha : a.isFinite = true) (hvalue : value a = rounded y) :
    realValue a = nearestDouble y := by
  obtain ⟨-, htop, hbot⟩ := isFinite_iff.mp ha
  rw [hvalue, rounded_coe, overflow] at htop hbot
  rw [realValue, hvalue, rounded_coe, overflow]
  split_ifs at htop hbot ⊢
  · contradiction
  · contradiction
  · exact EReal.toReal_coe _

theorem realValue_add (h : (a + b).isFinite = true) :
    realValue (a + b) = nearestDouble (realValue a + realValue b) := by
  obtain ⟨ha, hb⟩ := isFinite_of_add h
  refine realValue_of_rounded h ?_
  rw [value_add (.of_isFinite h), EReal.coe_add, coe_realValue ha, coe_realValue hb]

theorem realValue_sub (h : (a - b).isFinite = true) :
    realValue (a - b) = nearestDouble (realValue a - realValue b) := by
  obtain ⟨ha, hb⟩ := isFinite_of_sub h
  refine realValue_of_rounded h ?_
  rw [value_sub (.of_isFinite h), EReal.coe_sub, coe_realValue ha, coe_realValue hb]

theorem realValue_mul (h : (a * b).isFinite = true) :
    realValue (a * b) = nearestDouble (realValue a * realValue b) := by
  obtain ⟨ha, hb⟩ := isFinite_of_mul h
  refine realValue_of_rounded h ?_
  rw [value_mul (.of_isFinite h), EReal.coe_mul, coe_realValue ha, coe_realValue hb]

theorem realValue_of_unpack {word : UInt64} {m : ℕ} {e : ℤ} {hm : 0 < m}
    (hunpack : unpack .binary64 word.toBitVec = .finite .positive m e hm) :
    realValue (Float.ofBits word) = m * 2 ^ e := by
  rw [realValue, value, unpack_ofBits, hunpack, unpackedValue, EReal.toReal_coe, signFactor,
    one_mul]

theorem realValue_ofBits {word : UInt64} {e : ℤ}
    (hunpack : unpack .binary64 word.toBitVec =
      .finite .positive (2 ^ 52) e (by positivity)) :
    realValue (Float.ofBits word) = 2 ^ (52 + e) := by
  rw [realValue_of_unpack hunpack, zpow_add₀ two_ne_zero]
  norm_num

end ObstacleWatch
