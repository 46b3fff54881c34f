import ObstacleWatch.Proofs.FloatArithmetic

/-!
# Values of doubles

A double that is a number has a value among the extended reals, and its comparisons are those of the
values.  The value of a sum, a difference, a product or a quotient is the rounded value of the exact
result.  From this the signs and bounds of computed numbers follow as for extended reals: rounding
keeps the order, so a bound that is itself a double is kept as well.
-/

namespace ObstacleWatch

open Float.Model (UnpackedFloat)
open Float.Model.UnpackedFloat

noncomputable section

def IsNumber (x : Float) : Prop :=
  x.isNaN = false

instance : DecidablePred IsNumber :=
  fun x => inferInstanceAs (Decidable (x.isNaN = false))

/-- The value of a double; what is not a number is given the value zero. -/
def value (x : Float) : EReal :=
  unpackedValue x.toModel.unpack

theorem isStored_toModel (x : Float) : IsStored x.toModel.unpack :=
  isStored_unpack _

theorem rounded_value (x : Float) : rounded (value x) = value x :=
  rounded_unpackedValue (isStored_toModel x)

theorem unpack_pack_model {u : UnpackedFloat} (hu : IsCanonical u) :
    (Float.Model.pack u).unpack = settle u :=
  unpack_pack hu

theorem isNaN_settle (u : UnpackedFloat) : (settle u).isNaN = u.isNaN := by
  cases u with
  | finite s m e hm =>
      rw [settle]
      split_ifs <;> rfl
  | _ => rfl

/-! ## Comparisons -/

theorem fields_lt_of_exponent_lt {m₁ m₂ : ℕ} {e₁ e₂ : ℤ} (h₁ : CanonicalFields m₁ e₁)
    (h₂ : CanonicalFields m₂ e₂) (he : e₁ < e₂) : (m₁ : ℝ) * 2 ^ e₁ < m₂ * 2 ^ e₂ := by
  have hnormal : 2 ^ 52 ≤ m₂ := h₂.normal.resolve_right (by have := h₁.exponent_ge; omega)
  calc (m₁ : ℝ) * 2 ^ e₁ < 2 ^ (53 : ℤ) * 2 ^ e₁ :=
        mul_lt_mul_of_pos_right (by exact_mod_cast h₁.mantissa_lt) (zpow_pos two_pos e₁)
    _ = 2 ^ (52 : ℤ) * 2 ^ (e₁ + 1) := by
        rw [← zpow_add₀ two_ne_zero, ← zpow_add₀ two_ne_zero]
        congr 1
        ring
    _ ≤ 2 ^ (52 : ℤ) * 2 ^ e₂ :=
        mul_le_mul_of_nonneg_left (zpow_le_zpow_right₀ one_le_two he) (zpow_pos two_pos _).le
    _ ≤ m₂ * 2 ^ e₂ :=
        mul_le_mul_of_nonneg_right (by exact_mod_cast hnormal) (zpow_pos two_pos e₂).le

/-- Canonical numbers compare by their exponents first. -/
theorem fields_compares {m₁ m₂ : ℕ} {e₁ e₂ : ℤ} (h₁ : CanonicalFields m₁ e₁)
    (h₂ : CanonicalFields m₂ e₂) :
    ((compare e₁ e₂).then (compare m₁ m₂)).Compares ((m₁ : ℝ) * 2 ^ e₁) (m₂ * 2 ^ e₂) := by
  rcases lt_trichotomy e₁ e₂ with he | rfl | he
  · rw [compare_lt_iff_lt.mpr he]
    exact fields_lt_of_exponent_lt h₁ h₂ he
  · rw [compare_eq_iff_eq.mpr rfl, Ordering.eq_then]
    have hpos : (0 : ℝ) < 2 ^ e₁ := zpow_pos two_pos e₁
    rcases lt_trichotomy m₁ m₂ with hm | rfl | hm
    · rw [compare_lt_iff_lt.mpr hm]
      exact mul_lt_mul_of_pos_right (by exact_mod_cast hm) hpos
    · rw [compare_eq_iff_eq.mpr rfl]
      rfl
    · rw [compare_gt_iff_gt.mpr hm]
      exact mul_lt_mul_of_pos_right (by exact_mod_cast hm) hpos
  · rw [compare_gt_iff_gt.mpr he]
    exact fields_lt_of_exponent_lt h₂ h₁ he

theorem unpackedValue_positive {m : ℕ} {e : ℤ} (hm : 0 < m) :
    unpackedValue (.finite .positive m e hm) = (m * 2 ^ e : ℝ) := by
  rw [unpackedValue, signFactor, one_mul]

theorem unpackedValue_negative {m : ℕ} {e : ℤ} (hm : 0 < m) :
    unpackedValue (.finite .negative m e hm) = (-(m * 2 ^ e) : ℝ) := by
  rw [unpackedValue, signFactor, neg_one_mul]

theorem unpackedValue_positive_pos {m : ℕ} {e : ℤ} (hm : 0 < m) :
    0 < unpackedValue (.finite .positive m e hm) := by
  rw [unpackedValue_positive]
  exact EReal.coe_pos.mpr (pos_mantissa_mul_zpow hm e)

theorem unpackedValue_negative_neg {m : ℕ} {e : ℤ} (hm : 0 < m) :
    unpackedValue (.finite .negative m e hm) < 0 := by
  rw [unpackedValue_negative]
  exact EReal.coe_neg'.mpr (neg_neg_of_pos (pos_mantissa_mul_zpow hm e))

theorem compares_coe {o : Ordering} {x y : ℝ} (h : o.Compares x y) :
    o.Compares (x : EReal) (y : EReal) := by
  cases o with
  | lt => exact EReal.coe_lt_coe_iff.mpr h
  | eq => exact congrArg _ h
  | gt => exact EReal.coe_lt_coe_iff.mpr h

theorem compares_swap_neg {o : Ordering} {x y : ℝ} (h : o.Compares x y) :
    o.swap.Compares (-x) (-y) := by
  cases o with
  | lt => exact neg_lt_neg h
  | eq => exact congrArg _ h
  | gt => exact neg_lt_neg h

/-- Numbers compare like their values. -/
theorem exists_compares {a b : UnpackedFloat} (ha : IsStored a) (hb : IsStored b)
    (hanumber : a.isNaN = false) (hbnumber : b.isNaN = false) :
    ∃ o, a.compare b = some o ∧ o.Compares (unpackedValue a) (unpackedValue b) := by
  cases a with
  | notANumber => contradiction
  | infinity s₁ =>
      cases b with
      | notANumber => contradiction
      | infinity s₂ =>
          cases s₁ <;> cases s₂
          · exact ⟨.eq, rfl, rfl⟩
          · exact ⟨.lt, rfl, bot_lt_top⟩
          · exact ⟨.gt, rfl, bot_lt_top⟩
          · exact ⟨.eq, rfl, rfl⟩
      | zero s₂ =>
          cases s₁
          · exact ⟨.lt, rfl, EReal.bot_lt_zero⟩
          · exact ⟨.gt, rfl, EReal.zero_lt_top⟩
      | finite s₂ m₂ e₂ h₂ =>
          cases s₁
          · exact ⟨.lt, rfl, EReal.bot_lt_coe _⟩
          · exact ⟨.gt, rfl, EReal.coe_lt_top _⟩
  | zero s₁ =>
      cases b with
      | notANumber => contradiction
      | infinity s₂ =>
          cases s₂
          · exact ⟨.gt, rfl, EReal.bot_lt_zero⟩
          · exact ⟨.lt, rfl, EReal.zero_lt_top⟩
      | zero s₂ => exact ⟨.eq, rfl, rfl⟩
      | finite s₂ m₂ e₂ h₂ =>
          cases s₂
          · exact ⟨.gt, rfl, unpackedValue_negative_neg h₂⟩
          · exact ⟨.lt, rfl, unpackedValue_positive_pos h₂⟩
  | finite s₁ m₁ e₁ h₁ =>
      cases b with
      | notANumber => contradiction
      | infinity s₂ =>
          cases s₂
          · exact ⟨.gt, by cases s₁ <;> rfl, EReal.bot_lt_coe _⟩
          · exact ⟨.lt, by cases s₁ <;> rfl, EReal.coe_lt_top _⟩
      | zero s₂ =>
          cases s₁
          · exact ⟨.lt, rfl, unpackedValue_negative_neg h₁⟩
          · exact ⟨.gt, rfl, unpackedValue_positive_pos h₁⟩
      | finite s₂ m₂ e₂ h₂ =>
          have hfields := fields_compares ha.1 hb.1
          cases s₁ <;> cases s₂
          · refine ⟨_, rfl, ?_⟩
            rw [unpackedValue_negative, unpackedValue_negative]
            exact compares_coe (compares_swap_neg hfields)
          · exact ⟨.lt, rfl, (unpackedValue_negative_neg h₁).trans (unpackedValue_positive_pos h₂)⟩
          · exact ⟨.gt, rfl, (unpackedValue_negative_neg h₂).trans (unpackedValue_positive_pos h₁)⟩
          · refine ⟨_, rfl, ?_⟩
            rw [unpackedValue_positive, unpackedValue_positive]
            exact compares_coe hfields

theorem compare_eq_none {a b : UnpackedFloat} (h : a.isNaN = true ∨ b.isNaN = true) :
    a.compare b = none := by
  rcases h with h | h
  · cases a <;> first | contradiction | rfl
  · cases b <;> first | contradiction | (cases a <;> rfl)

theorem compare_eq_some_iff {a b : Float} {o : Ordering} :
    a.toModel.unpack.compare b.toModel.unpack = some o ↔
      IsNumber a ∧ IsNumber b ∧ o.Compares (value a) (value b) := by
  by_cases hnumbers : IsNumber a ∧ IsNumber b
  · obtain ⟨ha, hb⟩ := hnumbers
    obtain ⟨o', ho', hvalues⟩ := exists_compares (isStored_toModel a) (isStored_toModel b) ha hb
    rw [ho', Option.some.injEq]
    constructor
    · rintro rfl
      exact ⟨ha, hb, hvalues⟩
    · rintro ⟨-, -, h⟩
      exact hvalues.inj h
  · have hnone : a.toModel.unpack.compare b.toModel.unpack = none := by
      apply compare_eq_none
      rw [not_and_or] at hnumbers
      exact hnumbers.imp (Bool.eq_true_of_not_eq_false ·) (Bool.eq_true_of_not_eq_false ·)
    rw [hnone]
    constructor
    · intro h
      contradiction
    · rintro ⟨ha, hb, -⟩
      exact absurd ⟨ha, hb⟩ hnumbers

theorem lt_iff_value {a b : Float} : a < b ↔ IsNumber a ∧ IsNumber b ∧ value a < value b := by
  have hcompare : a < b ↔ a.toModel.unpack.compare b.toModel.unpack = some .lt := by
    change decide (a.toModel < b.toModel) = true ↔ _
    rw [decide_eq_true_iff]
    exact beq_iff_eq
  exact hcompare.trans compare_eq_some_iff

theorem beq_iff_value {a b : Float} :
    (a == b) = true ↔ IsNumber a ∧ IsNumber b ∧ value a = value b := by
  have hcompare : (a == b) = true ↔ a.toModel.unpack.compare b.toModel.unpack = some .eq := by
    change (a.toModel.unpack.compare b.toModel.unpack == some .eq) = true ↔ _
    exact beq_iff_eq
  exact hcompare.trans compare_eq_some_iff

theorem le_iff_value {a b : Float} : a ≤ b ↔ IsNumber a ∧ IsNumber b ∧ value a ≤ value b := by
  have hcompare : a ≤ b ↔ ∃ o, a.toModel.unpack.compare b.toModel.unpack = some o ∧ o.isLE := by
    change decide (a.toModel ≤ b.toModel) = true ↔ _
    rw [decide_eq_true_iff]
    exact Option.any_eq_true _ _
  simp only [hcompare, compare_eq_some_iff]
  constructor
  · rintro ⟨o, ⟨ha, hb, hvalues⟩, hle⟩
    refine ⟨ha, hb, ?_⟩
    cases o with
    | lt => exact le_of_lt hvalues
    | eq => exact le_of_eq hvalues
    | gt => contradiction
  · rintro ⟨ha, hb, hle⟩
    rcases hle.lt_or_eq with hlt | heq
    · exact ⟨.lt, ⟨ha, hb, hlt⟩, rfl⟩
    · exact ⟨.eq, ⟨ha, hb, heq⟩, rfl⟩

/-! ## Arithmetic -/

variable {a b : Float}

theorem value_of_computes {x : Float} {u : UnpackedFloat} {y : EReal} (hu : Computes u y)
    (hunpack : x.toModel = .pack u) (hx : IsNumber x) : value x = rounded y := by
  have hsettle : x.toModel.unpack = settle u := by
    rw [hunpack, unpack_pack_model hu.canonical]
  have hnumber : u.isNaN = false := by
    rw [← isNaN_settle, ← hsettle]
    exact hx
  rw [value, hsettle, hu.value_eq hnumber]

theorem isNumber_iff_of_computes {x : Float} {u : UnpackedFloat} {y : EReal} (hu : Computes u y)
    (hunpack : x.toModel = .pack u) : IsNumber x ↔ u.isNaN = false := by
  rw [← isNaN_settle, ← unpack_pack_model hu.canonical, ← hunpack]
  rfl

theorem computes_float_add (a b : Float) :
    Computes (UnpackedFloat.add .binary64 a.toModel.unpack b.toModel.unpack) (value a + value b) :=
  computes_add (isStored_toModel a) (isStored_toModel b)

theorem value_add (h : IsNumber (a + b)) : value (a + b) = rounded (value a + value b) :=
  value_of_computes (computes_float_add a b) rfl h

theorem unpack_neg (a : Float) : (-a).toModel.unpack = a.toModel.unpack.neg :=
  (unpack_pack_model (isStored_toModel a).neg.isCanonical).trans
    (settle_of_isStored (isStored_toModel a).neg)

theorem value_neg (a : Float) : value (-a) = -value a := by
  rw [value, unpack_neg, unpackedValue_neg]
  rfl

theorem isNumber_neg : IsNumber (-a) ↔ IsNumber a := by
  change (-a).toModel.unpack.isNaN = false ↔ a.toModel.unpack.isNaN = false
  rw [unpack_neg]
  cases a.toModel.unpack <;> rfl

theorem float_sub_eq_add_neg (a b : Float) : a - b = a + -b := by
  change Float.ofModel (.pack (UnpackedFloat.sub .binary64 a.toModel.unpack b.toModel.unpack)) =
    Float.ofModel (.pack (UnpackedFloat.add .binary64 a.toModel.unpack (-b).toModel.unpack))
  rw [unpack_neg, sub_eq_add_neg_unpacked]

theorem value_sub (h : IsNumber (a - b)) : value (a - b) = rounded (value a - value b) := by
  rw [float_sub_eq_add_neg] at h ⊢
  rw [value_add h, value_neg, sub_eq_add_neg]

theorem computes_float_mul (a b : Float) :
    Computes (UnpackedFloat.mul .binary64 a.toModel.unpack b.toModel.unpack) (value a * value b) :=
  computes_mul (isStored_toModel a) (isStored_toModel b)

theorem value_mul (h : IsNumber (a * b)) : value (a * b) = rounded (value a * value b) :=
  value_of_computes (computes_float_mul a b) rfl h

theorem computes_float_div (a : Float) (hzero : value b ≠ 0) :
    Computes (UnpackedFloat.div .binary64 a.toModel.unpack b.toModel.unpack) (value a / value b) :=
  computes_div (isStored_toModel a) (isStored_toModel b) hzero

theorem value_div (hzero : value b ≠ 0) (h : IsNumber (a / b)) :
    value (a / b) = rounded (value a / value b) :=
  value_of_computes (computes_float_div a hzero) rfl h

/-! ## Results that are numbers -/

theorem isFinite_iff : a.isFinite = true ↔ IsNumber a ∧ value a ≠ ⊤ ∧ value a ≠ ⊥ :=
  isFinite_unpacked_iff _

theorem isNumber_of_value_ne_zero (h : value a ≠ 0) : IsNumber a := by
  unfold IsNumber value at *
  change a.toModel.unpack.isNaN = false
  cases hunpack : a.toModel.unpack with
  | notANumber =>
      rw [hunpack] at h
      exact absurd rfl h
  | _ => rfl

theorem isInf_iff : a.isInf = true ↔ value a = ⊤ ∨ value a = ⊥ := by
  unfold value
  change a.toModel.unpack.isInf = true ↔ _
  cases a.toModel.unpack with
  | infinity s => cases s <;> simp [isInf, unpackedValue]
  | notANumber => simp [isInf, unpackedValue]
  | zero s => simp [isInf, unpackedValue]
  | finite s m e hm =>
      exact iff_of_false Bool.false_ne_true
        (not_or.mpr ⟨EReal.coe_ne_top _, EReal.coe_ne_bot _⟩)

theorem IsNumber.of_add (h : IsNumber (a + b)) : IsNumber a ∧ IsNumber b :=
  isNumber_operands_add ((isNumber_iff_of_computes (computes_float_add a b) rfl).mp h)

theorem IsNumber.of_sub (h : IsNumber (a - b)) : IsNumber a ∧ IsNumber b := by
  rw [float_sub_eq_add_neg] at h
  exact ⟨h.of_add.1, isNumber_neg.mp h.of_add.2⟩

theorem IsNumber.of_mul (h : IsNumber (a * b)) : IsNumber a ∧ IsNumber b :=
  isNumber_operands_mul ((isNumber_iff_of_computes (computes_float_mul a b) rfl).mp h)

theorem IsNumber.of_div (hzero : value b ≠ 0) (h : IsNumber (a / b)) : IsNumber a ∧ IsNumber b :=
  isNumber_operands_div ((isNumber_iff_of_computes (computes_float_div a hzero) rfl).mp h)

theorem isFinite_of_computes {x : Float} {u : UnpackedFloat} {y : EReal} (hu : Computes u y)
    (hunpack : x.toModel = .pack u) (hx : x.isFinite = true) : u.isFinite = true := by
  have hsettled : (settle u).isFinite = true := by
    rw [← unpack_pack_model hu.canonical, ← hunpack]
    exact hx
  cases u <;> first | rfl | contradiction

theorem isFinite_of_add (h : (a + b).isFinite = true) : a.isFinite = true ∧ b.isFinite = true :=
  isFinite_operands_add (isFinite_of_computes (computes_float_add a b) rfl h)

theorem isFinite_neg : (-a).isFinite = a.isFinite := by
  change (-a).toModel.unpack.isFinite = a.toModel.unpack.isFinite
  rw [unpack_neg]
  cases a.toModel.unpack <;> rfl

theorem isFinite_of_sub (h : (a - b).isFinite = true) : a.isFinite = true ∧ b.isFinite = true := by
  rw [float_sub_eq_add_neg] at h
  obtain ⟨ha, hb⟩ := isFinite_of_add h
  exact ⟨ha, isFinite_neg.symm.trans hb⟩

theorem isFinite_of_mul (h : (a * b).isFinite = true) : a.isFinite = true ∧ b.isFinite = true :=
  isFinite_operands_mul (isFinite_of_computes (computes_float_mul a b) rfl h)

theorem isNumber_add (ha : IsNumber a) (hb : IsNumber b) (hopposite : value a ≠ ⊤ ∨ value b ≠ ⊥)
    (hopposite' : value a ≠ ⊥ ∨ value b ≠ ⊤) : IsNumber (a + b) :=
  (isNumber_iff_of_computes (computes_float_add a b) rfl).mpr
    (isNaN_add ha hb hopposite hopposite')

theorem isNumber_mul (ha : IsNumber a) (hb : IsNumber b) (hzero : value a ≠ 0 ∨ b.isFinite = true)
    (hzero' : a.isFinite = true ∨ value b ≠ 0) : IsNumber (a * b) :=
  (isNumber_iff_of_computes (computes_float_mul a b) rfl).mpr (isNaN_mul ha hb hzero hzero')

theorem isNumber_div (ha : IsNumber a) (hb : IsNumber b) (hzero : value b ≠ 0)
    (hfinite : a.isFinite = true ∨ b.isFinite = true) : IsNumber (a / b) :=
  (isNumber_iff_of_computes (computes_float_div a hzero) rfl).mpr (isNaN_div ha hb hzero hfinite)

end

end ObstacleWatch
