import ObstacleWatch.Proofs.RoundingError

/-!
# Gaps between doubles

All finite doubles are whole multiples of the least positive one.  Two different ones are therefore
at least that far apart: a difference never rounds to zero, and the next double after a given one
bounds everything above it.  Quotients of nonnegative numbers respect the order in both operands.
-/

namespace ObstacleWatch

open Float.Model.UnpackedFloat

variable {a b c d : Float}

/-! ## Multiples of the least double -/

theorem leastDouble_pos : 0 < leastDouble := zpow_pos two_pos _

theorem rounded_leastDouble : rounded (leastDouble : EReal) = leastDouble := by
  have hnearest : nearestDouble leastDouble = leastDouble := by
    simpa [leastDouble] using nearestDouble_of_lt (n := 1) (e := -1074) (by norm_num) le_rfl
  have hsmall : leastDouble < overflowBound := zpow_lt_zpow_right₀ one_lt_two (by norm_num)
  rw [rounded_coe, hnearest]
  exact overflow_of_abs_lt (by rwa [abs_of_pos leastDouble_pos])

theorem exists_signFactor_mul_eq (s : Sign) {m : ℕ} {e : ℤ} (he : -1074 ≤ e) :
    ∃ n : ℤ, signFactor s * (m * 2 ^ e) = n * leastDouble := by
  obtain ⟨k, hk⟩ := Int.le.dest he
  refine ⟨s.apply (m * 2 ^ k), ?_⟩
  rw [signFactor_mul_apply, zpow_eq_intCast_mul_zpow hk, leastDouble]
  push_cast
  ring

theorem exists_realValue_eq (x : Float) : ∃ n : ℤ, realValue x = n * leastDouble := by
  have hstored := isStored_toModel x
  unfold realValue value
  cases hunpack : x.toModel.unpack with
  | finite s m e hm =>
      rw [hunpack] at hstored
      exact exists_signFactor_mul_eq s hstored.1.exponent_ge
  | infinity s => cases s <;> exact ⟨0, by simp [unpackedValue]⟩
  | _ => exact ⟨0, by simp [unpackedValue]⟩

theorem realValue_lt_iff (ha : a.isFinite = true) (hb : b.isFinite = true) :
    realValue a < realValue b ↔ a < b := by
  rw [lt_iff_value, ← coe_realValue ha, ← coe_realValue hb, EReal.coe_lt_coe_iff]
  exact ⟨fun h => ⟨.of_isFinite ha, .of_isFinite hb, h⟩, fun h => h.2.2⟩

/-- Different doubles are at least the least double apart. -/
theorem leastDouble_le_sub (ha : a.isFinite = true) (hb : b.isFinite = true) (hlt : a < b) :
    leastDouble ≤ realValue b - realValue a := by
  obtain ⟨m, hm⟩ := exists_realValue_eq a
  obtain ⟨n, hn⟩ := exists_realValue_eq b
  have hvalues := (realValue_lt_iff ha hb).mpr hlt
  rw [hm, hn] at hvalues ⊢
  have hmn : m < n := by exact_mod_cast lt_of_mul_lt_mul_right hvalues leastDouble_pos.le
  have hone : (1 : ℝ) ≤ n - m := by exact_mod_cast (by omega : 1 ≤ n - m)
  calc leastDouble = 1 * leastDouble := (one_mul _).symm
    _ ≤ (n - m) * leastDouble := mul_le_mul_of_nonneg_right hone leastDouble_pos.le
    _ = n * leastDouble - m * leastDouble := sub_mul _ _ _

/-- A computed difference is positive exactly if the numbers are in this order. -/
theorem float_sub_pos_iff (ha : a.isFinite = true) (hb : b.isFinite = true) :
    0 < b - a ↔ a < b := by
  have hnumber := isNumber_sub_of_isFinite hb (.of_isFinite ha)
  have hvalue : value (b - a) = rounded ((realValue b - realValue a : ℝ) : EReal) := by
    rw [value_sub hnumber, EReal.coe_sub, coe_realValue ha, coe_realValue hb]
  rw [pos_iff_value, hvalue]
  constructor
  · rintro ⟨-, hpos⟩
    by_contra hlt
    have hle := float_le_of_not_lt (.of_isFinite ha) (.of_isFinite hb) hlt
    have hdrop := sub_nonpos.mpr ((realValue_le_iff hb ha).mpr hle)
    have hrounded := rounded_mono (EReal.coe_nonpos.mpr hdrop)
    rw [rounded_zero] at hrounded
    exact hpos.not_ge hrounded
  · intro hlt
    refine ⟨hnumber, ?_⟩
    have hgap := rounded_mono (EReal.coe_le_coe_iff.mpr (leastDouble_le_sub ha hb hlt))
    rw [rounded_leastDouble] at hgap
    exact (EReal.coe_pos.mpr leastDouble_pos).trans_le hgap

/-- The next double after a number bounds everything above it. -/
theorem float_le_of_lt_of_next (ha : a.isFinite = true) (hc : c.isFinite = true)
    (hnext : realValue c = realValue a + leastDouble) (hlt : a < b) : c ≤ b := by
  by_cases hb : b.isFinite = true
  · have hgap := leastDouble_le_sub ha hb hlt
    rw [← realValue_le_iff hc hb, hnext]
    linarith
  · obtain ⟨-, hbnumber, hvalues⟩ := lt_iff_value.mp hlt
    have htop : value b = ⊤ := by
      by_contra htop
      exact hb (isFinite_iff.mpr ⟨hbnumber, htop, (bot_le.trans_lt hvalues).ne'⟩)
    exact le_iff_value.mpr ⟨.of_isFinite hc, hbnumber, htop ▸ le_top⟩

/-! ## Quotients -/

theorem inv_le_inv_of_le {x y : EReal} (hx : 0 < x) (hxy : x ≤ y) : y⁻¹ ≤ x⁻¹ :=
  (EReal.inv_strictAntiOn.le_iff_ge (hx.trans_le hxy) hx).mpr hxy

theorem float_div_le_div (ha : 0 ≤ a) (hac : a ≤ c) (hc : c.isFinite = true) (hd : 0 < d)
    (hdb : d ≤ b) : a / b ≤ c / d := by
  obtain ⟨hdnumber, hdpos⟩ := pos_iff_value.mp hd
  obtain ⟨-, hbnumber, hdble⟩ := le_iff_value.mp hdb
  obtain ⟨hanumber, hcnumber, hacle⟩ := le_iff_value.mp hac
  have hbpos := hdpos.trans_le hdble
  have hafinite := isFinite_of_nonneg_of_le ha hac hc
  have hleft := isNumber_div hanumber hbnumber hbpos.ne' (.inl hafinite)
  have hright := isNumber_div hcnumber hdnumber hdpos.ne' (.inl hc)
  have hcnonneg := (nonneg_iff_value.mp ha).2.trans hacle
  rw [le_iff_value, value_div hbpos.ne' hleft, value_div hdpos.ne' hright]
  refine ⟨hleft, hright, rounded_mono ?_⟩
  calc value a / value b ≤ value c / value b := EReal.div_le_div_right_of_nonneg hbpos.le hacle
    _ ≤ value c / value d :=
        mul_le_mul_of_nonneg_left (inv_le_inv_of_le hdpos hdble) hcnonneg

end ObstacleWatch
