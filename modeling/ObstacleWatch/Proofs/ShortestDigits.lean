import ObstacleWatch.Number.Decimal
import ObstacleWatch.Proofs.FormatWords

/-!
# The shortest digits read back

The numbers that round to a given number of a format fill an interval around it.  The shortest
digits are looked for on grids of powers of ten, coarse ones first.  The seventeenth grid is finer
than the interval is wide, so one of the neighbours of the number on it lies inside, and the search
never fails.  Whatever decimal it ends with lies in the interval, and so the given number is the
nearest one to it.
-/

namespace ObstacleWatch

/-! ## Rounding in a format -/

theorem nearestInt_eq {x : ℝ} {n : ℤ} (hnear : |x - n| ≤ 1 / 2) (heven : |x - n| = 1 / 2 → Even n) :
    nearestInt x = n := by
  obtain ⟨hlow, hhigh⟩ := abs_le.mp hnear
  rcases le_or_gt (n : ℝ) x with hle | hlt
  · have hfloor : ⌊x⌋ = n := Int.floor_eq_iff.mpr ⟨hle, by linarith⟩
    have hfract : Int.fract x = |x - n| := by
      rw [Int.fract, hfloor, abs_of_nonneg (by linarith)]
    rcases hnear.lt_or_eq with hless | hhalf
    · rw [nearestInt, hfract, if_pos hless, hfloor]
    · rw [nearestInt, hfract, if_neg (by linarith), if_neg (by linarith), hfloor,
        if_pos (heven hhalf)]
  · have hfloor : ⌊x⌋ = n - 1 := by
      rw [Int.floor_eq_iff]
      push_cast
      exact ⟨by linarith, by linarith⟩
    have hfract : Int.fract x = 1 - |x - n| := by
      rw [Int.fract, hfloor, abs_of_neg (by linarith)]
      push_cast
      ring
    rcases hnear.lt_or_eq with hless | hhalf
    · rw [nearestInt, hfract, if_neg (by linarith), if_pos (by linarith), hfloor, sub_add_cancel]
    · have hodd : ¬Even (n - 1) := by
        rw [Int.even_sub_one]
        exact not_not_intro (heven hhalf)
      rw [nearestInt, hfract, if_neg (by linarith), if_neg (by linarith), hfloor, if_neg hodd,
        sub_add_cancel]

namespace BinaryFormat

noncomputable section

/-- The exponent of the last place that numbers of the size of `x` have in a format. -/
def placeExponent (f : BinaryFormat) (x : ℝ) : ℤ :=
  max (Int.log 2 |x| - f.fractionWidth) f.leastExponent

def lastPlace (f : BinaryFormat) (x : ℝ) : ℝ :=
  (2 : ℕ) ^ f.placeExponent x

/-- The nearest number of a format, as if there were no largest one. -/
def nearest (f : BinaryFormat) (x : ℝ) : ℝ :=
  nearestInt (x / f.lastPlace x) * f.lastPlace x

end

theorem nearest_double (x : ℝ) : nearest .double x = nearestDouble x := rfl

variable {f : BinaryFormat} {m : ℕ} {e : ℤ} {x : ℝ}

theorem nearest_neg (f : BinaryFormat) (x : ℝ) : f.nearest (-x) = -f.nearest x := by
  have hplace : f.lastPlace (-x) = f.lastPlace x := by
    rw [lastPlace, placeExponent, abs_neg, lastPlace, placeExponent]
  rw [nearest, hplace, neg_div, nearestInt_neg, Int.cast_neg, neg_mul, nearest]

theorem nearest_signed (f : BinaryFormat) (negative : Bool) (x : ℝ) :
    f.nearest (signed negative x) = signed negative (f.nearest x) := by
  cases negative with
  | false => rfl
  | true => exact f.nearest_neg x

@[simp] theorem nearest_zero (f : BinaryFormat) : f.nearest 0 = 0 := by
  have hzero : nearestInt 0 = 0 := by simpa using nearestInt_intCast 0
  rw [nearest, zero_div, hzero, Int.cast_zero, zero_mul]

/-- Numbers of one binade share their last place. -/
theorem placeExponent_eq (hlow : 2 ^ (f.fractionWidth + e) ≤ x)
    (hhigh : x < 2 ^ (f.fractionWidth + e + 1)) (hleast : f.leastExponent ≤ e) :
    f.placeExponent x = e := by
  have hpos : 0 < x := (zpow_pos two_pos _).trans_le hlow
  have hlog : Int.log 2 x = f.fractionWidth + e := log_two_eq hlow hhigh
  rw [placeExponent, abs_of_pos hpos, hlog]
  omega

/-- All numbers below the normal ones share the smallest last place. -/
theorem placeExponent_eq_least (hpos : 0 < x)
    (hhigh : x < 2 ^ (f.fractionWidth + f.leastExponent + 1)) :
    f.placeExponent x = f.leastExponent := by
  have hlog : Int.log 2 x < f.fractionWidth + f.leastExponent + 1 :=
    (Int.lt_zpow_iff_log_lt Nat.one_lt_two hpos).mp (by exact_mod_cast hhigh)
  rw [placeExponent, abs_of_pos hpos]
  omega

theorem nearest_eq (hplace : f.placeExponent x = e) {n : ℤ} (hnear : |x / 2 ^ e - n| ≤ 1 / 2)
    (heven : |x / 2 ^ e - n| = 1 / 2 → Even n) : f.nearest x = n * 2 ^ e := by
  rw [nearest, lastPlace, hplace, Nat.cast_ofNat, nearestInt_eq hnear heven]

/-- A quarter of a place below a power of two is half a place there, and the power is even. -/
theorem nearest_below_power {y : ℝ} (hlarge : f.leastExponent < e)
    (hlow : 2 ^ f.fractionWidth - 1 / 4 ≤ y) (hhigh : y < 2 ^ f.fractionWidth) :
    f.nearest (y * 2 ^ e) = 2 ^ f.fractionWidth * 2 ^ e := by
  have hplace : (2 : ℝ) ^ e = 2 * 2 ^ (e - 1) := by
    rw [← zpow_one_add₀ two_ne_zero, add_sub_cancel]
  have hpos : (0 : ℝ) < 2 ^ (e - 1) := zpow_pos two_pos _
  have hpower : (1 : ℝ) ≤ 2 ^ f.fractionWidth := one_le_pow₀ one_le_two
  have hscaled : y * 2 ^ e = 2 * y * 2 ^ (e - 1) := by
    rw [hplace]
    ring
  have hexponent : f.placeExponent (y * 2 ^ e) = e - 1 := by
    refine placeExponent_eq ?_ ?_ (by omega)
    · rw [hscaled, zpow_add₀ two_ne_zero, zpow_natCast]
      exact mul_le_mul_of_nonneg_right (by linarith) hpos.le
    · rw [hscaled, add_assoc, zpow_add₀ two_ne_zero, sub_add_cancel, zpow_natCast, hplace]
      linarith [mul_lt_mul_of_pos_right hhigh hpos]
  have hdouble : y * 2 ^ e / 2 ^ (e - 1) = 2 * y := by
    rw [hscaled, mul_div_cancel_right₀ _ hpos.ne']
  have hnear : |2 * y - 2 * 2 ^ f.fractionWidth| ≤ 1 / 2 :=
    abs_le.mpr ⟨by linarith, by linarith⟩
  have hround := nearest_eq (n := 2 * 2 ^ f.fractionWidth) hexponent
    (by
      rw [hdouble]
      exact_mod_cast hnear)
    fun _ => even_two_mul _
  rw [hround, hplace]
  push_cast
  ring

end BinaryFormat

namespace Decimal

/-! ## The rounding interval -/

/-- The number lies between the ends of the interval, or is one of them if they belong to it. -/
inductive Interval.Contains (i : Interval) (x : ℝ) : Prop
  | inside (hlow : i.low * 2 ^ i.unit < x) (hhigh : x < i.high * 2 ^ i.unit)
  | closed (hclosed : i.closed = true) (hlow : i.low * 2 ^ i.unit ≤ x)
      (hhigh : x ≤ i.high * 2 ^ i.unit)

variable {f : BinaryFormat} {m : ℕ} {e : ℤ} {x : ℝ} {i : Interval}

theorem Interval.contains_iff : i.Contains x ↔
    if i.closed then i.low * 2 ^ i.unit ≤ x ∧ x ≤ i.high * 2 ^ i.unit
    else i.low * 2 ^ i.unit < x ∧ x < i.high * 2 ^ i.unit := by
  constructor
  · rintro (⟨hlow, hhigh⟩ | ⟨hclosed, hlow, hhigh⟩)
    · split_ifs
      · exact ⟨hlow.le, hhigh.le⟩
      · exact ⟨hlow, hhigh⟩
    · rw [if_pos hclosed]
      exact ⟨hlow, hhigh⟩
  · intro hends
    split_ifs at hends with hclosed
    · exact .closed hclosed hends.1 hends.2
    · exact .inside hends.1 hends.2

/-- Only below a power of two the gap is half as wide. -/
theorem exists_low_interval (f : BinaryFormat) (m : ℕ) (e : ℤ) :
    ∃ gap, (interval f m e).low = 4 * m - gap ∧
      (gap = 1 ∧ m = 2 ^ f.fractionWidth ∨
        gap = 2 ∧ ¬(m = 2 ^ f.fractionWidth ∧ f.leastExponent < e)) := by
  by_cases hnarrow : m = 2 ^ f.fractionWidth ∧ f.leastExponent < e
  · exact ⟨1, by simp only [interval, Nat.pow_eq, if_pos hnarrow], .inl ⟨rfl, hnarrow.1⟩⟩
  · exact ⟨2, by simp only [interval, Nat.pow_eq, if_neg hnarrow], .inr ⟨rfl, hnarrow⟩⟩

/-- In units of the last place of its number, the interval reaches half a place up, and half a place
or a quarter down. -/
theorem near_of_contains_interval (hm : 0 < m) (hx : (interval f m e).Contains x) :
    |x / 2 ^ e - m| ≤ 1 / 2 ∧ (|x / 2 ^ e - m| = 1 / 2 → Even m) ∧
      (m = 2 ^ f.fractionWidth → f.leastExponent < e → m - 1 / 4 ≤ x / 2 ^ e) := by
  have hunit : (2 : ℝ) ^ (e - 2) = 2 ^ e / 4 := by
    rw [zpow_sub₀ two_ne_zero]
    norm_num
  have hplace : (0 : ℝ) < 2 ^ e := zpow_pos two_pos e
  obtain ⟨y, rfl⟩ : ∃ y, x = y * 2 ^ e := ⟨x / 2 ^ e, (div_mul_cancel₀ x hplace.ne').symm⟩
  rw [mul_div_cancel_right₀ y hplace.ne']
  obtain ⟨gap, hlow, hgap⟩ := exists_low_interval f m e
  have hnarrow (hpower : m = 2 ^ f.fractionWidth) (hlarge : f.leastExponent < e) : gap = 1 :=
    (hgap.resolve_right fun hwide => hwide.2 ⟨hpower, hlarge⟩).1
  have hends : ((interval f m e).low : ℝ) * 2 ^ (interval f m e).unit = (m - gap / 4) * 2 ^ e ∧
      ((interval f m e).high : ℝ) * 2 ^ (interval f m e).unit = (m + 1 / 2) * 2 ^ e := by
    have hvalue : (interval f m e).high = 4 * m + 2 ∧ (interval f m e).unit = e - 2 := ⟨rfl, rfl⟩
    rw [hlow, hvalue.1, hvalue.2, hunit, Nat.cast_sub (by omega)]
    push_cast
    constructor <;> ring
  have hgap : (gap : ℝ) ≤ 2 := by exact_mod_cast (by omega : gap ≤ 2)
  have hclosed : (interval f m e).closed = decide (m % 2 = 0) := rfl
  rw [Interval.contains_iff, hends.1, hends.2, hclosed] at hx
  simp only [mul_le_mul_iff_left₀ hplace, mul_lt_mul_iff_left₀ hplace, decide_eq_true_eq] at hx
  split_ifs at hx with heven
  · refine ⟨abs_le.mpr ⟨by linarith, by linarith⟩, fun _ => Nat.even_iff.mpr heven, ?_⟩
    intro hpower hlarge
    rw [hnarrow hpower hlarge] at hx
    push_cast at hx
    exact hx.1
  · have hless : |y - m| < 1 / 2 := abs_lt.mpr ⟨by linarith, by linarith⟩
    refine ⟨hless.le, fun hhalf => absurd hhalf hless.ne, ?_⟩
    intro hpower hlarge
    rw [hnarrow hpower hlarge] at hx
    push_cast at hx
    exact hx.1.le

/-- Whatever lies in the interval rounds to its number. -/
theorem nearest_of_contains_interval (hholds : f.Holds m e) (hm : 0 < m)
    (hx : (interval f m e).Contains x) : f.nearest x = m * 2 ^ e := by
  obtain ⟨hnear, heven, hnarrow⟩ := near_of_contains_interval hm hx
  obtain ⟨hlow, hhigh⟩ := abs_le.mp hnear
  have hplace : (0 : ℝ) < 2 ^ e := zpow_pos two_pos e
  obtain ⟨y, rfl⟩ : ∃ y, x = y * 2 ^ e := ⟨x / 2 ^ e, (div_mul_cancel₀ x hplace.ne').symm⟩
  rw [mul_div_cancel_right₀ y hplace.ne'] at hnear heven hnarrow hlow hhigh
  have hmpos : (1 : ℝ) ≤ m := by exact_mod_cast hm
  have hpos : 0 < y * 2 ^ e := mul_pos (by linarith) hplace
  have hmantissa : (m : ℝ) + 1 ≤ 2 ^ (f.fractionWidth + 1) := by exact_mod_cast hholds.mantissa_lt
  have hbelow : y * 2 ^ e < 2 ^ (f.fractionWidth + e + 1) := by
    have hpower : (2 : ℝ) ^ (f.fractionWidth + e + 1) = 2 ^ (f.fractionWidth + 1) * 2 ^ e := by
      rw [← zpow_natCast, ← zpow_add₀ two_ne_zero]
      congr 1
      push_cast
      ring
    rw [hpower]
    exact mul_lt_mul_of_pos_right (by linarith) hplace
  have hsame : y * 2 ^ e / 2 ^ e = y := mul_div_cancel_right₀ y hplace.ne'
  have hcast : ((m : ℤ) : ℝ) = m := Int.cast_natCast m
  -- Only below a power of two does the interval reach into a binade with smaller places.
  by_cases hbinade : 2 ^ f.fractionWidth ≤ y ∨ e = f.leastExponent
  · have hexponent : f.placeExponent (y * 2 ^ e) = e := by
      rcases hbinade with hfull | rfl
      · refine BinaryFormat.placeExponent_eq ?_ hbelow hholds.exponent_ge
        rw [zpow_add₀ two_ne_zero, zpow_natCast]
        exact mul_le_mul_of_nonneg_right hfull hplace.le
      · exact BinaryFormat.placeExponent_eq_least hpos hbelow
    have hround := BinaryFormat.nearest_eq (n := m) hexponent (by rwa [hsame, hcast])
      (by
        rw [hsame, hcast]
        exact fun hhalf => (Int.even_coe_nat m).mpr (heven hhalf))
    rwa [hcast] at hround
  · obtain ⟨hsmall, hleast⟩ := not_or.mp hbinade
    have hlarge : f.leastExponent < e := lt_of_le_of_ne hholds.exponent_ge (Ne.symm hleast)
    have hpower : m = 2 ^ f.fractionWidth := by
      have hle := hholds.normal.resolve_right hleast
      have hlt : (m : ℝ) < 2 ^ f.fractionWidth + 1 := by linarith
      have hlt : m < 2 ^ f.fractionWidth + 1 := by exact_mod_cast hlt
      omega
    have hquarter := hnarrow hpower hlarge
    rw [hpower] at hquarter ⊢
    push_cast at hquarter ⊢
    exact BinaryFormat.nearest_below_power hlarge hquarter (lt_of_not_ge hsmall)

/-! ## Grids -/

/-- The exact value of a decimal. -/
noncomputable def value (d : Decimal) : ℝ :=
  d.coefficient * 10 ^ d.exponent

theorem zpow_eq_div {b : ℝ} (hb : b ≠ 0) (k : ℤ) : b ^ k = b ^ k.toNat / b ^ (-k).toNat := by
  rw [← zpow_natCast, ← zpow_natCast, ← zpow_sub₀ hb]
  congr 1
  omega

theorem denominator_pos (m : ℕ) (binary decimal : ℤ) : 0 < (fraction m binary decimal).2 := by
  simp only [fraction, Nat.pow_eq]
  positivity

/-- Mantissas with the same exponents are compared over one denominator. -/
theorem denominator_eq (m n : ℕ) (binary decimal : ℤ) :
    (fraction m binary decimal).2 = (fraction n binary decimal).2 :=
  rfl

theorem numerator_eq (m : ℕ) (binary decimal : ℤ) :
    ((fraction m binary decimal).1 : ℝ) =
      m * 2 ^ binary * 10 ^ decimal * (fraction m binary decimal).2 := by
  simp only [fraction, Nat.pow_eq]
  rw [zpow_eq_div two_ne_zero binary, zpow_eq_div (by norm_num : (10 : ℝ) ≠ 0) decimal]
  push_cast
  field_simp

theorem le_grid_iff (n k : ℕ) (unit place : ℤ) :
    (fraction n unit (-place)).1 ≤ k * (fraction n unit (-place)).2 ↔
      (n : ℝ) * 2 ^ unit ≤ k * 10 ^ place := by
  have hpos : (0 : ℝ) < (fraction n unit (-place)).2 := by
    exact_mod_cast denominator_pos n unit (-place)
  rw [← Nat.cast_le (α := ℝ), Nat.cast_mul, numerator_eq, mul_le_mul_iff_left₀ hpos, zpow_neg,
    ← div_eq_mul_inv, div_le_iff₀ (by positivity)]

theorem grid_le_iff (n k : ℕ) (unit place : ℤ) :
    k * (fraction n unit (-place)).2 ≤ (fraction n unit (-place)).1 ↔
      k * 10 ^ place ≤ (n : ℝ) * 2 ^ unit := by
  have hpos : (0 : ℝ) < (fraction n unit (-place)).2 := by
    exact_mod_cast denominator_pos n unit (-place)
  rw [← Nat.cast_le (α := ℝ), Nat.cast_mul, numerator_eq, mul_le_mul_iff_left₀ hpos, zpow_neg,
    ← div_eq_mul_inv, le_div_iff₀ (by positivity)]

section Grid

variable {place : ℤ} {k : ℕ}

/-- A multiple of a power of ten lies in the interval as the whole numbers compare. -/
theorem Interval.contains_grid_iff :
    i.Contains (k * 10 ^ place) ↔
      if i.closed then
        (fraction i.low i.unit (-place)).1 ≤ k * (fraction i.value i.unit (-place)).2 ∧
          k * (fraction i.value i.unit (-place)).2 ≤ (fraction i.high i.unit (-place)).1
      else
        (fraction i.low i.unit (-place)).1 < k * (fraction i.value i.unit (-place)).2 ∧
          k * (fraction i.value i.unit (-place)).2 < (fraction i.high i.unit (-place)).1 := by
  have hlow := le_grid_iff i.low k i.unit place
  have hlow' := grid_le_iff i.low k i.unit place
  have hhigh := grid_le_iff i.high k i.unit place
  have hhigh' := le_grid_iff i.high k i.unit place
  rw [denominator_eq _ i.value] at hlow hlow' hhigh hhigh'
  rw [contains_iff]
  split_ifs
  · rw [hlow, hhigh]
  · rw [← not_le, ← not_le, ← not_le, ← not_le, hlow', hhigh']

/-- The interval lies around its number. -/
def Interval.IsOrdered (i : Interval) : Prop :=
  i.low < i.value ∧ i.value < i.high

theorem Interval.numerators_lt (hi : i.IsOrdered) (place : ℤ) :
    (fraction i.low i.unit (-place)).1 < (fraction i.value i.unit (-place)).1 ∧
      (fraction i.value i.unit (-place)).1 < (fraction i.high i.unit (-place)).1 := by
  simp only [fraction, Nat.pow_eq]
  constructor
  · exact Nat.mul_lt_mul_of_pos_right (Nat.mul_lt_mul_of_pos_right hi.1 (by positivity))
      (by positivity)
  · exact Nat.mul_lt_mul_of_pos_right (Nat.mul_lt_mul_of_pos_right hi.2 (by positivity))
      (by positivity)

/-- The greatest multiple of the power of ten that is at most the number. -/
def Interval.below (i : Interval) (place : ℤ) : ℕ :=
  (fraction i.value i.unit (-place)).1 / (fraction i.value i.unit (-place)).2

theorem Interval.below_bounds (i : Interval) (place : ℤ) :
    i.below place * (fraction i.value i.unit (-place)).2 ≤ (fraction i.value i.unit (-place)).1 ∧
      (fraction i.value i.unit (-place)).1 <
        (i.below place + 1) * (fraction i.value i.unit (-place)).2 := by
  constructor
  · exact Nat.div_mul_le_self _ _
  · exact (Nat.div_lt_iff_lt_mul (denominator_pos _ _ _)).mp (Nat.lt_succ_self _)

theorem roundHalfEven_cases (n d : ℕ) :
    Binary.roundHalfEven n d = n / d ∨ Binary.roundHalfEven n d = n / d + 1 := by
  unfold Binary.roundHalfEven
  dsimp only
  split_ifs <;> simp

/-- A grid gives one of the neighbours of the number, if one of them lies in the interval. -/
theorem Interval.onGrid_cases (hi : i.IsOrdered) (place : ℤ) :
    (∃ k : ℕ, i.onGrid place = some ⟨k, place⟩ ∧ i.Contains (k * 10 ^ place)) ∨
      i.onGrid place = none ∧ ¬i.Contains (i.below place * 10 ^ place) ∧
        ¬i.Contains ((i.below place + 1 : ℕ) * 10 ^ place) := by
  obtain ⟨hlow, hhigh⟩ := numerators_lt hi place
  obtain ⟨hbelow, habove⟩ := i.below_bounds place
  unfold onGrid
  simp only [denominator_eq i.low i.value, ← below.eq_def]
  generalize hbelowFits : (if i.closed then _ else _ : Bool) = belowFits
  generalize haboveFits : (if i.closed then _ else _ : Bool) = aboveFits
  have hbelowIff : belowFits = true ↔ i.Contains (i.below place * 10 ^ place) := by
    rw [← hbelowFits, contains_grid_iff]
    split_ifs <;> simp <;> omega
  have haboveIff : aboveFits = true ↔ i.Contains ((i.below place + 1 : ℕ) * 10 ^ place) := by
    rw [← haboveFits, contains_grid_iff]
    split_ifs <;> simp <;> omega
  cases belowFits <;> cases aboveFits
  · exact .inr ⟨rfl, by simpa using hbelowIff, by simpa using haboveIff⟩
  · exact .inl ⟨_, rfl, haboveIff.mp rfl⟩
  · exact .inl ⟨_, rfl, hbelowIff.mp rfl⟩
  · refine .inl ⟨_, rfl, ?_⟩
    rcases roundHalfEven_cases (fraction i.value i.unit (-place)).1
      (fraction i.value i.unit (-place)).2 with hround | hround
    · rw [hround]
      exact hbelowIff.mp rfl
    · rw [hround]
      exact haboveIff.mp rfl

/-- A grid without a multiple in the interval is at least as wide as the interval. -/
theorem Interval.width_le_of_onGrid_eq_none (hi : i.IsOrdered) (hnone : i.onGrid place = none) :
    ((i.high : ℝ) - i.low) * 2 ^ i.unit ≤ 10 ^ place := by
  obtain ⟨k, hsome, -⟩ | ⟨-, hbelow, habove⟩ := onGrid_cases hi place
  · rw [hnone] at hsome
    contradiction
  have hunit : (0 : ℝ) < 2 ^ i.unit := zpow_pos two_pos _
  obtain ⟨hfloor, hceil⟩ := i.below_bounds place
  have hleft : (i.below place : ℝ) * 10 ^ place ≤ i.low * 2 ^ i.unit := by
    have hvalue := (grid_le_iff i.value _ i.unit _).mp hfloor
    have hless : (i.value : ℝ) * 2 ^ i.unit < i.high * 2 ^ i.unit :=
      mul_lt_mul_of_pos_right (by exact_mod_cast hi.2) hunit
    by_contra hlarge
    exact hbelow (.inside (lt_of_not_ge hlarge) (hvalue.trans_lt hless))
  have hright : (i.high : ℝ) * 2 ^ i.unit ≤ (i.below place + 1 : ℕ) * 10 ^ place := by
    have hvalue := (le_grid_iff i.value _ i.unit _).mp hceil.le
    have hless : (i.low : ℝ) * 2 ^ i.unit < i.value * 2 ^ i.unit :=
      mul_lt_mul_of_pos_right (by exact_mod_cast hi.1) hunit
    by_contra hsmall
    exact habove (.inside (hless.trans_le hvalue) (lt_of_not_ge hsmall))
  push_cast at hright
  calc ((i.high : ℝ) - i.low) * 2 ^ i.unit
      = i.high * 2 ^ i.unit - i.low * 2 ^ i.unit := sub_mul _ _ _
    _ ≤ (i.below place + 1) * 10 ^ place - i.below place * 10 ^ place := sub_le_sub hright hleft
    _ = 10 ^ place := by ring

end Grid

/-! ## The leading digit -/

theorem pow_length_digits_le {n : ℕ} (hn : 0 < n) : 10 ^ ((digits n).length - 1) ≤ n := by
  by_cases hone : (digits n).length - 1 = 0
  · rw [hone]
    exact hn
  · by_contra hless
    have hle := (Nat.length_toDigits_le_iff (by decide) (Nat.pos_of_ne_zero hone)).mpr
      (Nat.lt_of_not_le hless)
    rw [← digits] at hle
    omega

/-- The count of places is large enough for the search to come to an end by itself. -/
theorem le_mul_pow_leadingPlace {numerator denominator : ℕ} (fuel n : ℕ)
    (hfuel : denominator ≤ numerator * 10 ^ (n + fuel)) :
    denominator ≤ numerator * 10 ^ leadingPlace numerator denominator fuel n := by
  induction fuel generalizing n with
  | zero => exact hfuel
  | succ fuel ih =>
      rw [leadingPlace]
      split_ifs with hfits
      · exact hfits
      · exact ih (n + 1) (by rwa [Nat.add_right_comm, Nat.add_assoc])

theorem two_zpow_le_of_natAbs (e : ℤ) : (10 : ℝ) ^ (-(e.natAbs : ℤ)) ≤ 2 ^ e := by
  calc (10 : ℝ) ^ (-(e.natAbs : ℤ)) ≤ 2 ^ (-(e.natAbs : ℤ)) := by
        rw [zpow_neg, zpow_neg, zpow_natCast, zpow_natCast]
        exact inv_anti₀ (by positivity) (pow_le_pow_left₀ (by norm_num) (by norm_num) _)
    _ ≤ 2 ^ e := zpow_le_zpow_right₀ one_le_two (by omega)

theorem denominator_le_mul_pow (hm : 0 < m) (e : ℤ) :
    (fraction m e 0).2 ≤ (fraction m e 0).1 * 10 ^ (1 + (e.natAbs + 1)) := by
  have hvalue := numerator_eq m e 0
  rw [zpow_zero, mul_one] at hvalue
  have hmone : (1 : ℝ) ≤ m := by exact_mod_cast hm
  have hone : (1 : ℝ) ≤ m * 2 ^ e * 10 ^ e.natAbs := by
    have htwo := two_zpow_le_of_natAbs e
    rw [zpow_neg, zpow_natCast, inv_le_iff_one_le_mul₀ (by positivity)] at htwo
    rw [mul_assoc]
    exact htwo.trans (le_mul_of_one_le_left (by positivity) hmone)
  have hmore : (1 : ℝ) ≤ m * 2 ^ e * 10 ^ (1 + (e.natAbs + 1)) :=
    hone.trans (mul_le_mul_of_nonneg_left (pow_le_pow_right₀ (by norm_num) (by omega))
      (by positivity))
  have hscaled := le_mul_of_one_le_left (Nat.cast_nonneg (α := ℝ) (fraction m e 0).2) hmore
  rw [mul_right_comm, ← hvalue] at hscaled
  exact_mod_cast hscaled

/-- The leading digit of a number stands at its leading exponent or above. -/
theorem zpow_leadingExponent_le (hm : 0 < m) (e : ℤ) :
    (10 : ℝ) ^ leadingExponent m e ≤ m * 2 ^ e := by
  have hdenominator := denominator_pos m e 0
  have hfuel := denominator_le_mul_pow hm e
  have hvalue := numerator_eq m e 0
  rw [zpow_zero, mul_one] at hvalue
  unfold leadingExponent
  generalize fraction m e 0 = parts at hdenominator hfuel hvalue
  obtain ⟨numerator, denominator⟩ := parts
  have hpos : (0 : ℝ) < denominator := by exact_mod_cast hdenominator
  dsimp only at hvalue hfuel ⊢
  split_ifs with hwhole
  · have hquotient := pow_length_digits_le (Nat.div_pos hwhole hdenominator)
    have hlength : 0 < (digits (numerator / denominator)).length := Nat.length_toDigits_pos
    have hexponent : ((digits (numerator / denominator)).length : ℤ) - 1 =
        ((digits (numerator / denominator)).length - 1 : ℕ) := by omega
    have hproduct := (Nat.mul_le_mul_right denominator hquotient).trans (Nat.div_mul_le_self _ _)
    rw [hexponent, zpow_natCast, ← mul_le_mul_iff_left₀ hpos, ← hvalue]
    exact_mod_cast hproduct
  · have hplace := le_mul_pow_leadingPlace (e.natAbs + 1) 1 hfuel
    generalize leadingPlace numerator denominator (e.natAbs + 1) 1 = place at hplace ⊢
    have hscaled : (denominator : ℝ) ≤ m * 2 ^ e * denominator * 10 ^ place := by
      rw [← hvalue]
      exact_mod_cast hplace
    rw [zpow_neg, zpow_natCast, inv_le_iff_one_le_mul₀ (by positivity),
      ← mul_le_mul_iff_left₀ hpos, one_mul, mul_right_comm]
    exact hscaled

/-! ## The search -/

@[simp] theorem value_stripZeros (n : ℕ) (d : Decimal) : (stripZeros n d).value = d.value := by
  induction n generalizing d with
  | zero => rfl
  | succ n ih =>
      rw [stripZeros]
      split_ifs with hzero
      · obtain ⟨k, hk⟩ := Nat.dvd_of_mod_eq_zero hzero.2
        rw [ih, value, value, hk, Nat.mul_div_cancel_left k (by decide),
          zpow_add_one₀ (by norm_num)]
        push_cast
        ring
      · rfl

theorem isOrdered_interval (hm : 0 < m) : (interval f m e).IsOrdered := by
  obtain ⟨gap, hlow, hgap⟩ := exists_low_interval f m e
  have hvalue : (interval f m e).value = 4 * m := rfl
  refine ⟨?_, Nat.lt_add_of_pos_right (by decide)⟩
  omega

/-- The seventeenth grid is finer than the interval of a number with so many digits. -/
theorem exists_onGrid (hholds : f.Holds m e) (hm : 0 < m)
    (hwidth : 2 ^ (f.fractionWidth + 1) ≤ 10 ^ 16) :
    ∃ d, (interval f m e).onGrid (leadingExponent m e - 16) = some d := by
  rw [← Option.isSome_iff_exists, Option.isSome_iff_ne_none]
  intro hnone
  have hgrid := Interval.width_le_of_onGrid_eq_none (isOrdered_interval hm) hnone
  have hlead := zpow_leadingExponent_le hm e
  have hplace : (0 : ℝ) < 2 ^ e := zpow_pos two_pos e
  obtain ⟨gap, hlow, hgap⟩ := exists_low_interval f m e
  have hends : (interval f m e).high = 4 * m + 2 ∧ (interval f m e).unit = e - 2 := ⟨rfl, rfl⟩
  have hwide : (gap + 2 : ℝ) / 4 * 2 ^ e ≤ m / 10 ^ 16 * 2 ^ e := by
    rw [hlow, hends.1, hends.2, Nat.cast_sub (by omega), zpow_sub₀ two_ne_zero,
      zpow_sub₀ (by norm_num)] at hgrid
    push_cast at hgrid
    norm_num at hgrid ⊢
    linarith
  have hdigits : (2 : ℝ) ^ (f.fractionWidth + 1) ≤ 10 ^ 16 := by exact_mod_cast hwidth
  have hmantissa : (m : ℝ) < 2 ^ (f.fractionWidth + 1) := by exact_mod_cast hholds.mantissa_lt
  have hratio := le_of_mul_le_mul_right hwide hplace
  rw [le_div_iff₀ (by positivity)] at hratio
  rcases hgap with ⟨rfl, hpower⟩ | ⟨rfl, -⟩
  · rw [hpower] at hratio
    rw [pow_succ] at hdigits
    push_cast at hratio
    linarith
  · push_cast at hratio
    linarith

/-- The shortest digits lie in the interval. -/
theorem contains_shortest (hholds : f.Holds m e) (hm : 0 < m)
    (hwidth : 2 ^ (f.fractionWidth + 1) ≤ 10 ^ 16) :
    (interval f m e).Contains (shortest f m e).value := by
  obtain ⟨last, hlast⟩ := exists_onGrid hholds hm hwidth
  let grid (n : ℕ) := (interval f m e).onGrid (leadingExponent m e - n)
  have hshortest : shortest f m e =
      stripZeros 400 (((List.range 17).findSome? grid).getD ⟨0, 0⟩) := if_neg hm.ne'
  rw [hshortest, value_stripZeros]
  cases hfound : (List.range 17).findSome? grid with
  | none =>
      have hnone := List.findSome?_eq_none_iff.mp hfound 16 (by decide)
      exact absurd (hnone.symm.trans hlast) nofun
  | some d =>
      obtain ⟨n, -, hd⟩ := List.exists_of_findSome?_eq_some hfound
      obtain ⟨k, hsome, hcontains⟩ | ⟨hnone, -⟩ :=
        Interval.onGrid_cases (isOrdered_interval (f := f) (e := e) hm) (leadingExponent m e - n)
      · obtain rfl := Option.some.inj (hd.symm.trans hsome)
        exact hcontains
      · exact absurd (hd.symm.trans hnone) nofun

/-- The number that digits were written for is the nearest one to them. -/
theorem nearest_shortest (hholds : f.Holds m e) (hwidth : 2 ^ (f.fractionWidth + 1) ≤ 10 ^ 16) :
    f.nearest (shortest f m e).value = m * 2 ^ e := by
  rcases Nat.eq_zero_or_pos m with rfl | hm
  · simp [shortest, value]
  · exact nearest_of_contains_interval hholds hm (contains_shortest hholds hm hwidth)

end Decimal

end ObstacleWatch
