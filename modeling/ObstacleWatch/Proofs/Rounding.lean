import ObstacleWatch.Proofs.DoubleSpec

/-!
# Rounding to the nearest double

Rounding respects the order and the sign, and it leaves alone what already is a double.  Every bound
on a rounded result in this library comes from these three facts; they hold for real numbers, and
with infinity for what is too large they hold for extended reals as well.
-/

namespace ObstacleWatch

/-! ## Nearest integers -/

@[simp] theorem nearestInt_intCast (n : ℤ) : nearestInt n = n := by
  simp [nearestInt]

theorem floor_le_nearestInt (x : ℝ) : ⌊x⌋ ≤ nearestInt x := by
  unfold nearestInt
  split_ifs <;> omega

theorem nearestInt_le_floor_add_one (x : ℝ) : nearestInt x ≤ ⌊x⌋ + 1 := by
  unfold nearestInt
  split_ifs <;> omega

theorem nearestInt_mono {x y : ℝ} (hxy : x ≤ y) : nearestInt x ≤ nearestInt y := by
  have hfloor : ⌊x⌋ ≤ ⌊y⌋ := Int.floor_le_floor hxy
  rcases hfloor.eq_or_lt with heq | hlt
  · have hfract : Int.fract x ≤ Int.fract y := by
      rw [Int.fract, Int.fract, heq]
      exact sub_le_sub_right hxy _
    unfold nearestInt
    rw [heq]
    split_ifs <;> first | omega | linarith
  · have hx := nearestInt_le_floor_add_one x
    have hy := floor_le_nearestInt y
    omega

theorem nearestInt_neg (x : ℝ) : nearestInt (-x) = -nearestInt x := by
  by_cases hint : Int.fract x = 0
  · obtain ⟨n, rfl⟩ := Int.fract_eq_zero_iff.mp hint
    rw [← Int.cast_neg, nearestInt_intCast, nearestInt_intCast]
  · have hfract : Int.fract (-x) = 1 - Int.fract x := Int.fract_neg hint
    have hfloor : ⌊-x⌋ = -⌊x⌋ - 1 := by
      have hcast : (⌊-x⌋ : ℝ) = -⌊x⌋ - 1 := by
        have hx := Int.floor_add_fract x
        have hneg := Int.floor_add_fract (-x)
        linarith
      exact_mod_cast hcast
    have heven : Even (-⌊x⌋ - 1) ↔ ¬Even ⌊x⌋ := by
      rw [Int.even_sub_one, even_neg]
    unfold nearestInt
    rw [hfract, hfloor]
    simp only [heven]
    split_ifs <;> first | omega | linarith

/-! ## Doubles without a largest exponent -/

theorem nearestDouble_neg (x : ℝ) : nearestDouble (-x) = -nearestDouble x := by
  have hunit : unitExponent (-x) = unitExponent x := by rw [unitExponent, unitExponent, abs_neg]
  rw [nearestDouble, hunit, neg_div, nearestInt_neg, Int.cast_neg, neg_mul, nearestDouble]

@[simp] theorem nearestDouble_zero : nearestDouble 0 = 0 := by
  have hzero : nearestInt 0 = 0 := by simpa using nearestInt_intCast 0
  rw [nearestDouble, zero_div, hzero, Int.cast_zero, zero_mul]

/-- Whole numbers of a last place that leave room for no more than 53 bits are doubles. -/
theorem nearestDouble_of_lt {n : ℤ} {e : ℤ} (hn : |n| < 2 ^ 53) (he : -1074 ≤ e) :
    nearestDouble (n * 2 ^ e) = n * 2 ^ e := by
  rcases eq_or_ne n 0 with rfl | hzero
  · simp
  have hlt : |(n : ℝ) * 2 ^ e| < (2 : ℝ) ^ (53 + e) := by
    rw [abs_mul, abs_of_pos (zpow_pos two_pos e : (0 : ℝ) < 2 ^ e), zpow_add₀ two_ne_zero]
    have hcast : |(n : ℝ)| < 2 ^ (53 : ℤ) := by exact_mod_cast hn
    exact mul_lt_mul_of_pos_right hcast (zpow_pos two_pos e)
  have hpos : 0 < |(n : ℝ) * 2 ^ e| :=
    abs_pos.mpr (mul_ne_zero (Int.cast_ne_zero.mpr hzero) (zpow_pos two_pos e).ne')
  have hlog : Int.log 2 |(n : ℝ) * 2 ^ e| < 53 + e := by
    have hcast : |(n : ℝ) * 2 ^ e| < ((2 : ℕ) : ℝ) ^ (53 + e) := by exact_mod_cast hlt
    exact (Int.lt_zpow_iff_log_lt Nat.one_lt_two hpos).mp hcast
  have hunit : unitExponent (n * 2 ^ e) ≤ e := by
    rw [unitExponent]
    omega
  obtain ⟨k, hk⟩ := Int.le.dest hunit
  have hwhole : (n : ℝ) * 2 ^ e / 2 ^ unitExponent (n * 2 ^ e) = ((n * 2 ^ k : ℤ) : ℝ) := by
    have hgap : e - unitExponent (n * 2 ^ e) = k := by omega
    rw [mul_div_assoc, ← zpow_sub₀ two_ne_zero, hgap, zpow_natCast]
    push_cast
    rfl
  rw [nearestDouble, hwhole, nearestInt_intCast, ← hwhole, div_mul_cancel₀]
  exact (zpow_pos two_pos _).ne'

theorem log_two_eq {x : ℝ} {k : ℤ} (hlow : 2 ^ k ≤ x) (hhigh : x < 2 ^ (k + 1)) :
    Int.log 2 x = k := by
  have hpos : 0 < x := (zpow_pos two_pos k).trans_le hlow
  have hge : k ≤ Int.log 2 x :=
    (Int.zpow_le_iff_le_log Nat.one_lt_two hpos).mp (by exact_mod_cast hlow)
  have hlt : Int.log 2 x < k + 1 :=
    (Int.lt_zpow_iff_log_lt Nat.one_lt_two hpos).mp (by exact_mod_cast hhigh)
  omega

theorem lt_zpow_unitExponent {x : ℝ} (hx : 0 < x) : x < 2 ^ (unitExponent x + 53) := by
  have hlog : Int.log 2 x < unitExponent x + 53 := by
    have hle : Int.log 2 |x| - 52 ≤ unitExponent x := le_max_left _ _
    rw [abs_of_pos hx] at hle
    omega
  have := (Int.lt_zpow_iff_log_lt Nat.one_lt_two hx).mpr hlog
  exact_mod_cast this

theorem zpow_unitExponent_le {x : ℝ} (hx : 0 < x) (hunit : unitExponent x ≠ -1074) :
    2 ^ (unitExponent x + 52) ≤ x := by
  have hlog : unitExponent x + 52 = Int.log 2 x := by
    have hmax : unitExponent x = max (Int.log 2 |x| - 52) (-1074) := rfl
    rw [abs_of_pos hx] at hmax
    omega
  rw [hlog]
  exact_mod_cast Int.zpow_log_le_self Nat.one_lt_two hx

theorem le_unitExponent {x : ℝ} {k : ℤ} (hx : 2 ^ (k + 52) ≤ x) : k ≤ unitExponent x := by
  have hpos : 0 < x := (zpow_pos two_pos _).trans_le hx
  have hlog : k + 52 ≤ Int.log 2 x :=
    (Int.zpow_le_iff_le_log Nat.one_lt_two hpos).mp (by exact_mod_cast hx)
  rw [unitExponent, abs_of_pos hpos]
  omega

theorem nearestInt_scaled_le {x : ℝ} (hx : 0 < x) :
    nearestInt (x / 2 ^ unitExponent x) ≤ 2 ^ 53 := by
  rw [← nearestInt_intCast (2 ^ 53)]
  apply nearestInt_mono
  have hlt := lt_zpow_unitExponent hx
  rw [add_comm, zpow_add₀ two_ne_zero] at hlt
  rw [div_le_iff₀ (zpow_pos two_pos _)]
  exact_mod_cast hlt.le

theorem le_nearestInt_scaled {x : ℝ} (hx : 0 < x) (hunit : unitExponent x ≠ -1074) :
    2 ^ 52 ≤ nearestInt (x / 2 ^ unitExponent x) := by
  rw [← nearestInt_intCast (2 ^ 52)]
  apply nearestInt_mono
  have hle := zpow_unitExponent_le hx hunit
  rw [add_comm, zpow_add₀ two_ne_zero] at hle
  rw [le_div_iff₀ (zpow_pos two_pos _)]
  exact_mod_cast hle

theorem unitExponent_mono {x y : ℝ} (hx : 0 < x) (hxy : x ≤ y) :
    unitExponent x ≤ unitExponent y := by
  have hlog : Int.log 2 |x| ≤ Int.log 2 |y| := by
    rw [abs_of_pos hx, abs_of_pos (hx.trans_le hxy)]
    exact Int.log_mono_right hx hxy
  rw [unitExponent, unitExponent]
  omega

/-- A whole number of last places that bounds a number bounds the nearest double. -/
theorem nearestDouble_le {x : ℝ} {n : ℤ} (hx : x ≤ n * 2 ^ unitExponent x) :
    nearestDouble x ≤ n * 2 ^ unitExponent x := by
  have hscaled : nearestInt (x / 2 ^ unitExponent x) ≤ n := by
    rw [← nearestInt_intCast n]
    apply nearestInt_mono
    rwa [div_le_iff₀ (zpow_pos two_pos _)]
  rw [nearestDouble]
  exact mul_le_mul_of_nonneg_right (by exact_mod_cast hscaled) (zpow_pos two_pos _).le

theorem le_nearestDouble {x : ℝ} {n : ℤ} (hx : n * 2 ^ unitExponent x ≤ x) :
    n * 2 ^ unitExponent x ≤ nearestDouble x := by
  have hscaled : n ≤ nearestInt (x / 2 ^ unitExponent x) := by
    rw [← nearestInt_intCast n]
    apply nearestInt_mono
    rwa [le_div_iff₀ (zpow_pos two_pos _)]
  rw [nearestDouble]
  exact mul_le_mul_of_nonneg_right (by exact_mod_cast hscaled) (zpow_pos two_pos _).le

theorem nearestDouble_nonneg {x : ℝ} (hx : 0 ≤ x) : 0 ≤ nearestDouble x := by
  have hle := le_nearestDouble (x := x) (n := 0) (by simpa using hx)
  simpa using hle

theorem zpow_eq_intCast_mul_zpow {e f : ℤ} {k : ℕ} (hk : f + k = e) :
    (2 : ℝ) ^ e = ((2 ^ k : ℤ) : ℝ) * 2 ^ f := by
  rw [← hk, add_comm, zpow_add₀ two_ne_zero, zpow_natCast]
  push_cast
  rfl

theorem nearestDouble_mono_of_pos {x y : ℝ} (hx : 0 < x) (hxy : x ≤ y) :
    nearestDouble x ≤ nearestDouble y := by
  have hy : 0 < y := hx.trans_le hxy
  rcases (unitExponent_mono hx hxy).eq_or_lt with heq | hlt
  · rw [nearestDouble, nearestDouble, heq]
    have hscaled : nearestInt (x / 2 ^ unitExponent y) ≤ nearestInt (y / 2 ^ unitExponent y) :=
      nearestInt_mono (div_le_div_of_nonneg_right hxy (zpow_pos two_pos _).le)
    exact mul_le_mul_of_nonneg_right (by exact_mod_cast hscaled) (zpow_pos two_pos _).le
  · -- The numbers have different last places, and the power of two at the start of the upper range
    -- lies between them.  It is a whole number of either.
    let e := unitExponent y
    obtain ⟨k, hk⟩ := Int.le.dest (show unitExponent x ≤ e + 52 by omega)
    have hpowx := zpow_eq_intCast_mul_zpow hk
    have hpowy : (2 : ℝ) ^ (e + 52) = ((2 ^ 52 : ℤ) : ℝ) * 2 ^ e := zpow_eq_intCast_mul_zpow rfl
    have hbelow : x ≤ 2 ^ (e + 52) := by
      have hunit : unitExponent x + 53 ≤ e + 52 := by omega
      exact (lt_zpow_unitExponent hx).le.trans (zpow_le_zpow_right₀ one_le_two hunit)
    have habove : 2 ^ (e + 52) ≤ y := by
      have hleast : -1074 ≤ unitExponent x := le_max_right _ _
      exact zpow_unitExponent_le hy (by omega)
    rw [hpowx] at hbelow
    rw [hpowy] at habove
    calc nearestDouble x ≤ ((2 ^ k : ℤ) : ℝ) * 2 ^ unitExponent x := nearestDouble_le hbelow
      _ = ((2 ^ 52 : ℤ) : ℝ) * 2 ^ e := hpowx.symm.trans hpowy
      _ ≤ nearestDouble y := le_nearestDouble habove

theorem nearestDouble_mono {x y : ℝ} (hxy : x ≤ y) : nearestDouble x ≤ nearestDouble y := by
  rcases lt_or_ge 0 x with hx | hx
  · exact nearestDouble_mono_of_pos hx hxy
  rcases lt_or_ge y 0 with hy | hy
  · have hneg := nearestDouble_mono_of_pos (neg_pos.mpr hy) (neg_le_neg hxy)
    rw [nearestDouble_neg, nearestDouble_neg] at hneg
    exact neg_le_neg_iff.mp hneg
  · have hlow : 0 ≤ nearestDouble (-x) := nearestDouble_nonneg (neg_nonneg.mpr hx)
    rw [nearestDouble_neg, neg_nonneg] at hlow
    exact hlow.trans (nearestDouble_nonneg hy)

/-! ## Rounding extended reals -/

theorem overflowBound_pos : 0 < overflowBound := zpow_pos two_pos 1024

theorem overflowBound_eq (k : ℤ) : overflowBound = 2 ^ (1024 - k) * 2 ^ k := by
  rw [← zpow_add₀ two_ne_zero, sub_add_cancel, overflowBound]

@[simp] theorem rounded_top : rounded ⊤ = ⊤ := rfl

@[simp] theorem rounded_coe (x : ℝ) : rounded x = overflow (nearestDouble x) := rfl

theorem overflow_of_abs_lt {x : ℝ} (hx : |x| < overflowBound) : overflow x = x := by
  obtain ⟨hlow, hhigh⟩ := abs_lt.mp hx
  rw [overflow, if_neg hhigh.not_ge, if_neg hlow.not_ge]

theorem overflow_mono {x y : ℝ} (hxy : x ≤ y) : overflow x ≤ overflow y := by
  unfold overflow
  split_ifs <;> first | exact le_top | exact bot_le | exact EReal.coe_le_coe hxy | linarith

theorem rounded_mono {x y : EReal} (hxy : x ≤ y) : rounded x ≤ rounded y := by
  induction x with
  | bot => exact bot_le
  | top =>
      rw [top_le_iff.mp hxy]
  | coe x =>
      induction y with
      | bot => exact absurd hxy (EReal.bot_lt_coe x).not_ge
      | top => exact le_top
      | coe y => exact overflow_mono (nearestDouble_mono (EReal.coe_le_coe_iff.mp hxy))

end ObstacleWatch
