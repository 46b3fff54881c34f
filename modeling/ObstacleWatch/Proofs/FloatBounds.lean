import ObstacleWatch.Proofs.FloatValue

/-!
# Signs and bounds of computed doubles

The comparisons of doubles are a linear order on the numbers among them, and what is not a number
compares with nothing.  Sums and products of nonnegative numbers are nonnegative, and they grow with
their operands.  A bound on a computed number therefore follows from bounds on its operands by doing
the same computation with the bounds.
-/

namespace ObstacleWatch

/-! ## The order -/

section Order

variable {a b c : Float}

theorem IsNumber.left_of_le (h : a ≤ b) : IsNumber a := (le_iff_value.mp h).1

theorem IsNumber.right_of_le (h : a ≤ b) : IsNumber b := (le_iff_value.mp h).2.1

theorem IsNumber.right_of_lt (h : a < b) : IsNumber b := (lt_iff_value.mp h).2.1

theorem float_le_refl (ha : IsNumber a) : a ≤ a :=
  le_iff_value.mpr ⟨ha, ha, le_rfl⟩

theorem float_le_trans (hab : a ≤ b) (hbc : b ≤ c) : a ≤ c := by
  obtain ⟨ha, -, hle⟩ := le_iff_value.mp hab
  obtain ⟨-, hc, hle'⟩ := le_iff_value.mp hbc
  exact le_iff_value.mpr ⟨ha, hc, hle.trans hle'⟩

theorem float_le_of_lt (h : a < b) : a ≤ b := by
  obtain ⟨ha, hb, hlt⟩ := lt_iff_value.mp h
  exact le_iff_value.mpr ⟨ha, hb, hlt.le⟩

theorem float_lt_of_lt_of_le (hab : a < b) (hbc : b ≤ c) : a < c := by
  obtain ⟨ha, -, hlt⟩ := lt_iff_value.mp hab
  obtain ⟨-, hc, hle⟩ := le_iff_value.mp hbc
  exact lt_iff_value.mpr ⟨ha, hc, hlt.trans_le hle⟩

theorem float_lt_of_le_of_lt (hab : a ≤ b) (hbc : b < c) : a < c := by
  obtain ⟨ha, -, hle⟩ := le_iff_value.mp hab
  obtain ⟨-, hc, hlt⟩ := lt_iff_value.mp hbc
  exact lt_iff_value.mpr ⟨ha, hc, hle.trans_lt hlt⟩

theorem float_le_of_not_lt (ha : IsNumber a) (hb : IsNumber b) (h : ¬a < b) : b ≤ a := by
  rw [lt_iff_value] at h
  exact le_iff_value.mpr ⟨hb, ha, not_lt.mp fun hlt => h ⟨ha, hb, hlt⟩⟩

/-- Any two numbers can be compared. -/
theorem float_lt_trichotomy (ha : IsNumber a) (hb : IsNumber b) :
    a < b ∨ (a == b) = true ∨ b < a := by
  rcases lt_trichotomy (value a) (value b) with h | h | h
  · exact .inl (lt_iff_value.mpr ⟨ha, hb, h⟩)
  · exact .inr (.inl (beq_iff_value.mpr ⟨ha, hb, h⟩))
  · exact .inr (.inr (lt_iff_value.mpr ⟨hb, ha, h⟩))

end Order

/-! ## Zero and one -/

@[simp] theorem value_zero : value 0 = 0 := rfl

@[simp] theorem value_one : value 1 = 1 := by
  have hunpack : value 1 =
      ((signFactor .positive * ((2 ^ 52 : ℕ) * 2 ^ (-52 : ℤ)) : ℝ) : EReal) := rfl
  rw [hunpack, signFactor]
  norm_num

theorem rounded_one : rounded 1 = 1 := by
  rw [← value_one, rounded_value]

theorem isNumber_zero : IsNumber 0 := rfl

theorem isNumber_one : IsNumber 1 := rfl

section Bounds

variable {a b c d : Float}

theorem nonneg_iff_value : 0 ≤ a ↔ IsNumber a ∧ 0 ≤ value a := by
  rw [le_iff_value, value_zero]
  exact ⟨fun h => h.2, fun h => ⟨isNumber_zero, h⟩⟩

theorem one_le_iff_value : 1 ≤ a ↔ IsNumber a ∧ 1 ≤ value a := by
  rw [le_iff_value, value_one]
  exact ⟨fun h => h.2, fun h => ⟨isNumber_one, h⟩⟩

theorem pos_iff_value : 0 < a ↔ IsNumber a ∧ 0 < value a := by
  rw [lt_iff_value, value_zero]
  exact ⟨fun h => h.2, fun h => ⟨isNumber_zero, h⟩⟩

theorem ne_bot_of_nonneg {x : EReal} (hx : 0 ≤ x) : x ≠ ⊥ :=
  (EReal.bot_lt_zero.trans_le hx).ne'

theorem rounded_nonneg {x : EReal} (hx : 0 ≤ x) : 0 ≤ rounded x :=
  rounded_zero ▸ rounded_mono hx

/-! ## Equal numbers

Numbers of one value are the same double, except that zero has two signs. -/

theorem eq_zero_or_eq_neg_zero (ha : IsNumber a) (hzero : value a = 0) : a = 0 ∨ a = -0 := by
  have hbeq : (a == 0) = true := beq_iff_value.mpr ⟨ha, isNumber_zero, hzero⟩
  obtain ⟨-, -, heq | ⟨heq, -⟩ | ⟨heq, -⟩⟩ := Float.beq_iff_ne_nan_and_eq.mp hbeq
  · exact Or.inl heq
  · exact Or.inl heq
  · exact Or.inr heq

theorem float_eq_of_not_lt (ha : IsNumber a) (hb : IsNumber b) (hanonzero : a ≠ -0)
    (hbnonzero : b ≠ -0) (hab : ¬a < b) (hba : ¬b < a) : a = b := by
  have hbeq : (a == b) = true := by
    rcases float_lt_trichotomy ha hb with hlt | heq | hlt
    · exact absurd hlt hab
    · exact heq
    · exact absurd hlt hba
  obtain ⟨-, -, heq | ⟨-, heq⟩ | ⟨heq, -⟩⟩ := Float.beq_iff_ne_nan_and_eq.mp hbeq
  · exact heq
  · exact absurd heq hbnonzero
  · exact absurd heq hanonzero

theorem zero_ne_neg_zero : (0 : Float) ≠ -0 := by
  intro heq
  have hbits := congrArg Float.toBits heq
  exact absurd hbits (by decide +kernel)

theorem value_neg_zero : value (-0) = 0 := by
  rw [value_neg, value_zero, neg_zero]

/-- A sum of nonnegative numbers is not the negative zero, unless its first part is. -/
theorem float_add_ne_neg_zero (ha : 0 ≤ a) (hb : 0 ≤ b) (hnonzero : a ≠ -0) : a + b ≠ -0 := by
  intro hsum
  obtain ⟨hanumber, hanonneg⟩ := nonneg_iff_value.mp ha
  obtain ⟨hbnumber, hbnonneg⟩ := nonneg_iff_value.mp hb
  have hnumber : IsNumber (a + b) := by
    rw [hsum]
    exact isNumber_neg.mpr isNumber_zero
  have hrounded : rounded (value a + value b) = 0 := by
    rw [← value_add hnumber, hsum, value_neg_zero]
  -- Rounding keeps the order, so neither part exceeds the sum.
  have hazero : value a = 0 := by
    refine le_antisymm ?_ hanonneg
    rw [← rounded_value a, ← hrounded]
    exact rounded_mono (le_add_of_nonneg_right hbnonneg)
  have hbzero : value b = 0 := by
    refine le_antisymm ?_ hbnonneg
    rw [← rounded_value b, ← hrounded]
    exact rounded_mono (le_add_of_nonneg_left hanonneg)
  obtain rfl := (eq_zero_or_eq_neg_zero hanumber hazero).resolve_right hnonzero
  have hzero : (0 : Float) + b = 0 := by
    rcases eq_zero_or_eq_neg_zero hbnumber hbzero with rfl | rfl
    · rfl
    · rfl
  exact zero_ne_neg_zero (hzero.symm.trans hsum)

/-! ## Finite doubles -/

theorem isFinite_of_le_of_le (hab : a ≤ b) (hbc : b ≤ c) (ha : a.isFinite = true)
    (hc : c.isFinite = true) : b.isFinite = true := by
  obtain ⟨-, hb, hlow⟩ := le_iff_value.mp hab
  obtain ⟨-, -, hhigh⟩ := le_iff_value.mp hbc
  obtain ⟨-, -, hbot⟩ := isFinite_iff.mp ha
  obtain ⟨-, htop, -⟩ := isFinite_iff.mp hc
  exact isFinite_iff.mpr ⟨hb, (hhigh.trans_lt htop.lt_top).ne,
    (hbot.bot_lt.trans_le hlow).ne'⟩

theorem isFinite_of_nonneg_of_le (ha : 0 ≤ a) (hac : a ≤ c) (hc : c.isFinite = true) :
    a.isFinite = true :=
  isFinite_of_le_of_le ha hac rfl hc

theorem IsNumber.of_isFinite (ha : a.isFinite = true) : IsNumber a :=
  (isFinite_iff.mp ha).1

/-! ## Sums and differences -/

theorem isNumber_add_of_nonneg (ha : 0 ≤ a) (hb : 0 ≤ b) : IsNumber (a + b) := by
  obtain ⟨hanumber, hanonneg⟩ := nonneg_iff_value.mp ha
  obtain ⟨hbnumber, hbnonneg⟩ := nonneg_iff_value.mp hb
  exact isNumber_add hanumber hbnumber (.inr (ne_bot_of_nonneg hbnonneg))
    (.inl (ne_bot_of_nonneg hanonneg))

theorem float_add_nonneg (ha : 0 ≤ a) (hb : 0 ≤ b) : 0 ≤ a + b := by
  have hnumber := isNumber_add_of_nonneg ha hb
  rw [nonneg_iff_value, value_add hnumber]
  exact ⟨hnumber, rounded_nonneg
    (add_nonneg (nonneg_iff_value.mp ha).2 (nonneg_iff_value.mp hb).2)⟩

theorem float_add_le_add (ha : 0 ≤ a) (hb : 0 ≤ b) (hac : a ≤ c) (hbd : b ≤ d) :
    a + b ≤ c + d := by
  have hleft := isNumber_add_of_nonneg ha hb
  have hright := isNumber_add_of_nonneg (float_le_trans ha hac) (float_le_trans hb hbd)
  rw [le_iff_value, value_add hleft, value_add hright]
  exact ⟨hleft, hright, rounded_mono
    (add_le_add (le_iff_value.mp hac).2.2 (le_iff_value.mp hbd).2.2)⟩

theorem float_le_add_right (ha : 0 ≤ a) (hb : 0 ≤ b) : a ≤ a + b := by
  have hsum := isNumber_add_of_nonneg ha hb
  rw [le_iff_value, value_add hsum]
  refine ⟨.right_of_le ha, hsum, ?_⟩
  calc value a = rounded (value a + 0) := by rw [add_zero, rounded_value]
    _ ≤ rounded (value a + value b) :=
      rounded_mono (add_le_add_right (nonneg_iff_value.mp hb).2 (value a))

theorem isNumber_sub_of_isFinite (ha : a.isFinite = true) (hb : IsNumber b) : IsNumber (a - b) := by
  obtain ⟨hanumber, htop, hbot⟩ := isFinite_iff.mp ha
  rw [float_sub_eq_add_neg]
  exact isNumber_add hanumber (isNumber_neg.mpr hb) (.inl htop) (.inl hbot)

theorem float_sub_le_sub (ha : a.isFinite = true) (hc : c.isFinite = true) (hac : a ≤ c)
    (hdb : d ≤ b) : a - b ≤ c - d := by
  have hleft := isNumber_sub_of_isFinite ha (.right_of_le hdb)
  have hright := isNumber_sub_of_isFinite hc (.left_of_le hdb)
  rw [le_iff_value, value_sub hleft, value_sub hright]
  exact ⟨hleft, hright, rounded_mono
    (EReal.sub_le_sub (le_iff_value.mp hac).2.2 (le_iff_value.mp hdb).2.2)⟩

theorem float_sub_le_self (ha : a.isFinite = true) (hb : 0 ≤ b) : a - b ≤ a := by
  have hnumber := isNumber_sub_of_isFinite ha (.right_of_le hb)
  have hle : value a - value b ≤ value a := by
    calc value a - value b ≤ value a - 0 := EReal.sub_le_sub le_rfl (nonneg_iff_value.mp hb).2
      _ = value a := sub_zero _
  rw [le_iff_value, value_sub hnumber]
  exact ⟨hnumber, .of_isFinite ha, (rounded_mono hle).trans_eq (rounded_value a)⟩

theorem float_sub_nonneg (ha : a.isFinite = true) (hba : b ≤ a) : 0 ≤ a - b := by
  have hnumber := isNumber_sub_of_isFinite ha (.left_of_le hba)
  obtain ⟨-, htop, hbot⟩ := isFinite_iff.mp ha
  rw [nonneg_iff_value, value_sub hnumber]
  refine ⟨hnumber, rounded_nonneg ?_⟩
  rw [EReal.sub_nonneg (.inl htop) (.inl hbot)]
  exact (le_iff_value.mp hba).2.2

/-! ## Products and quotients -/

theorem float_mul_nonneg (ha : 0 ≤ a) (hb : 0 ≤ b) (hnumber : IsNumber (a * b)) : 0 ≤ a * b := by
  rw [nonneg_iff_value, value_mul hnumber]
  exact ⟨hnumber, rounded_nonneg
    (mul_nonneg (nonneg_iff_value.mp ha).2 (nonneg_iff_value.mp hb).2)⟩

theorem float_mul_nonneg_of_pos (ha : 0 < a) (hfinite : a.isFinite = true) (hb : 0 ≤ b) :
    0 ≤ a * b := by
  have hnumber := isNumber_mul (.right_of_lt ha) (.right_of_le hb)
    (.inl (pos_iff_value.mp ha).2.ne') (.inl hfinite)
  exact float_mul_nonneg (float_le_of_lt ha) hb hnumber

theorem float_mul_nonneg_of_isFinite (ha : 0 ≤ a) (hb : 0 ≤ b) (hafinite : a.isFinite = true)
    (hbfinite : b.isFinite = true) : 0 ≤ a * b :=
  float_mul_nonneg ha hb
    (isNumber_mul (.right_of_le ha) (.right_of_le hb) (.inr hbfinite) (.inl hafinite))

theorem float_mul_le_mul (ha : 0 ≤ a) (hb : 0 ≤ b) (hac : a ≤ c) (hbd : b ≤ d)
    (hc : c.isFinite = true) (hd : d.isFinite = true) : a * b ≤ c * d := by
  have hafinite := isFinite_of_nonneg_of_le ha hac hc
  have hbfinite := isFinite_of_nonneg_of_le hb hbd hd
  have hleft := isNumber_mul (.of_isFinite hafinite) (.of_isFinite hbfinite) (.inr hbfinite)
    (.inl hafinite)
  have hright := isNumber_mul (.of_isFinite hc) (.of_isFinite hd) (.inr hd) (.inl hc)
  rw [le_iff_value, value_mul hleft, value_mul hright]
  exact ⟨hleft, hright, rounded_mono (mul_le_mul_of_nonneg (le_iff_value.mp hac).2.2
    (le_iff_value.mp hbd).2.2 (nonneg_iff_value.mp ha).2
    (nonneg_iff_value.mp (float_le_trans hb hbd)).2)⟩

/-- A positive factor keeps the order, also where the larger product is infinite. -/
theorem float_mul_le_mul_of_pos (ha : 0 < a) (hfinite : a.isFinite = true) (hbc : b ≤ c) :
    a * b ≤ a * c := by
  obtain ⟨hanumber, hapos⟩ := pos_iff_value.mp ha
  have hleft := isNumber_mul hanumber (.left_of_le hbc) (.inl hapos.ne') (.inl hfinite)
  have hright := isNumber_mul hanumber (.right_of_le hbc) (.inl hapos.ne') (.inl hfinite)
  rw [le_iff_value, value_mul hleft, value_mul hright]
  exact ⟨hleft, hright, rounded_mono (mul_le_mul_of_nonneg_left (le_iff_value.mp hbc).2.2 hapos.le)⟩

theorem float_one_le_mul (ha : 1 ≤ a) (hb : 1 ≤ b) : 1 ≤ a * b := by
  obtain ⟨hanumber, hale⟩ := one_le_iff_value.mp ha
  obtain ⟨hbnumber, hble⟩ := one_le_iff_value.mp hb
  have hpos : (0 : EReal) < 1 := zero_lt_one
  have hnumber := isNumber_mul hanumber hbnumber (.inl (hpos.trans_le hale).ne')
    (.inr (hpos.trans_le hble).ne')
  rw [one_le_iff_value, value_mul hnumber, ← rounded_one]
  refine ⟨hnumber, rounded_mono ?_⟩
  calc (1 : EReal) = 1 * 1 := (one_mul 1).symm
    _ ≤ value a * value b := mul_le_mul_of_nonneg hale hble hpos.le (hpos.le.trans hble)

theorem float_mul_one_le (ha : IsNumber a) : a * 1 ≤ a := by
  have hone : value 1 ≠ 0 := by
    rw [value_one]
    exact one_ne_zero
  have hnumber : IsNumber (a * 1) := isNumber_mul ha isNumber_one (.inr rfl) (.inr hone)
  rw [le_iff_value, value_mul hnumber, value_one, mul_one, rounded_value]
  exact ⟨hnumber, ha, le_rfl⟩

theorem float_one_mul (ha : 1 ≤ a) : 1 * a = a := by
  obtain ⟨hnumber, hvalue⟩ := one_le_iff_value.mp ha
  have hne : value a ≠ 0 := (zero_lt_one.trans_le hvalue).ne'
  have hproduct : IsNumber (1 * a) := isNumber_mul isNumber_one hnumber (.inl (by simp)) (.inl rfl)
  have hsame : value (1 * a) = value a := by
    rw [value_mul hproduct, value_one, one_mul, rounded_value]
  have hnonzero {x : Float} (hx : value x ≠ 0) : x ≠ -0 := fun heq => hx (heq ▸ value_neg_zero)
  refine float_eq_of_not_lt hproduct hnumber (hnonzero (hsame ▸ hne)) (hnonzero hne) ?_ ?_
  · exact fun hlt => (lt_iff_value.mp hlt).2.2.ne hsame
  · exact fun hlt => (lt_iff_value.mp hlt).2.2.ne' hsame

theorem float_div_nonneg (ha : 0 ≤ a) (hb : 0 < b)
    (hfinite : a.isFinite = true ∨ b.isFinite = true) : 0 ≤ a / b := by
  obtain ⟨hanumber, hanonneg⟩ := nonneg_iff_value.mp ha
  obtain ⟨hbnumber, hbpos⟩ := pos_iff_value.mp hb
  have hnumber := isNumber_div hanumber hbnumber hbpos.ne' hfinite
  rw [nonneg_iff_value, value_div hbpos.ne' hnumber]
  exact ⟨hnumber, rounded_nonneg (EReal.div_nonneg hanonneg hbpos.le)⟩

/-- The larger the divisor, the smaller the quotient. -/
theorem float_div_le_div_left (ha : 0 ≤ a) (hfinite : a.isFinite = true) (hb : 0 < b)
    (hbc : b ≤ c) : a / c ≤ a / b := by
  obtain ⟨hanumber, hanonneg⟩ := nonneg_iff_value.mp ha
  obtain ⟨hbnumber, hbpos⟩ := pos_iff_value.mp hb
  obtain ⟨-, hcnumber, hvalues⟩ := le_iff_value.mp hbc
  have hcpos : 0 < value c := hbpos.trans_le hvalues
  have hleft := isNumber_div hanumber hcnumber hcpos.ne' (.inl hfinite)
  have hright := isNumber_div hanumber hbnumber hbpos.ne' (.inl hfinite)
  rw [le_iff_value, value_div hcpos.ne' hleft, value_div hbpos.ne' hright]
  exact ⟨hleft, hright, rounded_mono (mul_le_mul_of_nonneg_left
    (EReal.inv_strictAntiOn.antitoneOn hbpos hcpos hvalues) hanonneg)⟩

/-- Dividing by a number of at least one exceeds no bound that is not negative. -/
theorem float_div_le (hac : a ≤ c) (hc : 0 ≤ c) (hb : 1 ≤ b) (hnumber : IsNumber (a / b)) :
    a / b ≤ c := by
  obtain ⟨-, hbone⟩ := one_le_iff_value.mp hb
  obtain ⟨hcnumber, hcnonneg⟩ := nonneg_iff_value.mp hc
  have hbpos : 0 < value b := zero_lt_one.trans_le hbone
  rw [le_iff_value, value_div hbpos.ne' hnumber, ← rounded_value c]
  refine ⟨hnumber, hcnumber, rounded_mono ?_⟩
  by_cases htop : value b = ⊤
  · rw [htop, EReal.div_top]
    exact hcnonneg
  · rw [EReal.div_le_iff_le_mul hbpos htop]
    calc value a ≤ value c := (le_iff_value.mp hac).2.2
      _ = 1 * value c := (one_mul _).symm
      _ ≤ value b * value c := mul_le_mul_of_nonneg_right hbone hcnonneg

/-- A quotient by what is no smaller is at most one. -/
theorem float_div_le_one (hab : a ≤ b) (hb : 0 < b) (hfinite : b.isFinite = true)
    (hnumber : IsNumber (a / b)) : a / b ≤ 1 := by
  obtain ⟨-, hbpos⟩ := pos_iff_value.mp hb
  rw [le_iff_value, value_div hbpos.ne' hnumber, value_one, ← rounded_one]
  refine ⟨hnumber, isNumber_one, rounded_mono ?_⟩
  rw [EReal.div_le_iff_le_mul hbpos (isFinite_iff.mp hfinite).2.1, mul_one]
  exact (le_iff_value.mp hab).2.2

/-! ## Ranges -/

/-- The number lies between zero and a finite bound. -/
structure IsWithin (bound x : Float) : Prop where
  nonneg : 0 ≤ x
  le : x ≤ bound
  finite : bound.isFinite = true

theorem isWithin_self (ha : 0 ≤ a) (hfinite : a.isFinite = true) : IsWithin a a :=
  ⟨ha, float_le_refl (.right_of_le ha), hfinite⟩

namespace IsWithin

variable {x y : Float}

theorem isFinite (hx : IsWithin a x) : x.isFinite = true :=
  isFinite_of_nonneg_of_le hx.nonneg hx.le hx.finite

theorem add (hx : IsWithin a x) (hy : IsWithin b y) (hsum : a + b ≤ c)
    (hc : c.isFinite = true) : IsWithin c (x + y) where
  nonneg := float_add_nonneg hx.nonneg hy.nonneg
  le := float_le_trans (float_add_le_add hx.nonneg hy.nonneg hx.le hy.le) hsum
  finite := hc

theorem mul (hx : IsWithin a x) (hy : IsWithin b y) (hproduct : a * b ≤ c)
    (hc : c.isFinite = true) : IsWithin c (x * y) where
  nonneg := float_mul_nonneg_of_isFinite hx.nonneg hy.nonneg hx.isFinite hy.isFinite
  le := float_le_trans (float_mul_le_mul hx.nonneg hy.nonneg hx.le hy.le hx.finite hy.finite)
    hproduct
  finite := hc

end IsWithin

end Bounds

end ObstacleWatch
