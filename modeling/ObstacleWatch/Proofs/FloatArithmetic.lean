import ObstacleWatch.Proofs.FloatRounding

/-!
# The arithmetic of doubles

The sum, the difference, the product and the quotient of two unpacked numbers have the rounded value
of the exact result, unless there is no result at all.  Bits that are shifted out on the way leave
enough behind to tell where the exact value lies, and what is too large for a word becomes infinite
when it is packed.  For each operation it is also said when the result is a number, and that finite
results have finite operands.
-/

namespace ObstacleWatch

open Float.Model (Format UnpackedFloat totalExponent)
open Float.Model.UnpackedFloat

/-! ## Stored numbers -/

theorem mantissa_mul_zpow_lt_zpow {m : ℕ} {e k : ℤ} (hm : m < 2 ^ 53) (he : e ≤ k) :
    (m : ℝ) * 2 ^ e < 2 ^ (53 + k) := by
  calc (m : ℝ) * 2 ^ e < 2 ^ (53 : ℤ) * 2 ^ e :=
        mul_lt_mul_of_pos_right (by exact_mod_cast hm) (zpow_pos two_pos e)
    _ ≤ 2 ^ (53 : ℤ) * 2 ^ k :=
        mul_le_mul_of_nonneg_left (zpow_le_zpow_right₀ one_le_two he) (zpow_pos two_pos _).le
    _ = 2 ^ (53 + k) := (zpow_add₀ two_ne_zero 53 k).symm

theorem mantissa_mul_zpow_lt {m : ℕ} {e : ℤ} (hm : m < 2 ^ 53) (he : e ≤ 971) :
    m * 2 ^ e < overflowBound :=
  mantissa_mul_zpow_lt_zpow hm he

theorem le_mantissa_mul_zpow {m : ℕ} {e : ℤ} (hm : 2 ^ 52 ≤ m) (he : 972 ≤ e) :
    overflowBound ≤ m * 2 ^ e := by
  calc overflowBound = 2 ^ (52 : ℤ) * 2 ^ (972 : ℤ) := overflowBound_eq 972
    _ ≤ 2 ^ (52 : ℤ) * 2 ^ e :=
        mul_le_mul_of_nonneg_left (zpow_le_zpow_right₀ one_le_two he) (zpow_pos two_pos _).le
    _ ≤ m * 2 ^ e := mul_le_mul_of_nonneg_right (by exact_mod_cast hm) (zpow_pos two_pos e).le

theorem signFactor_cases (s : Sign) : signFactor s = 1 ∨ signFactor s = -1 := by
  cases s
  · exact .inr rfl
  · exact .inl rfl

theorem abs_signFactor_mul (s : Sign) (y : ℝ) : |signFactor s * y| = |y| := by
  rcases signFactor_cases s with h | h <;> simp [h]

theorem nonneg_mantissa_mul_zpow (m : ℕ) (e : ℤ) : 0 ≤ (m : ℝ) * 2 ^ e :=
  mul_nonneg m.cast_nonneg (zpow_pos two_pos e).le

/-- What is too large for a word overflows when it is packed. -/
theorem unpackedValue_settle {s : Sign} {y : ℝ} {u : UnpackedFloat} (hu : HasMagnitude s y u) :
    unpackedValue (settle u) = overflow (signFactor s * y) := by
  have hpos := overflowBound_pos
  cases u with
  | infinity _ => exact hu.elim
  | notANumber => exact hu.elim
  | zero _ =>
      obtain ⟨-, rfl⟩ := hu
      rw [mul_zero, overflow_of_abs_lt (by rwa [abs_zero])]
      rfl
  | finite s' m e hm =>
      obtain ⟨rfl, hfields, rfl⟩ := hu
      rw [settle]
      split_ifs with hlarge
      · have hnormal : 2 ^ 52 ≤ m := hfields.normal.resolve_right (by omega)
        have hreach := le_mantissa_mul_zpow hnormal hlarge
        cases s'
        · rw [signFactor, overflow, if_neg (by linarith), if_pos (by linarith)]
          rfl
        · rw [signFactor, overflow, if_pos (by linarith)]
          rfl
      · have hlt := mantissa_mul_zpow_lt hfields.mantissa_lt (show e ≤ 971 by omega)
        rw [overflow_of_abs_lt, unpackedValue]
        rwa [abs_signFactor_mul, abs_of_nonneg (nonneg_mantissa_mul_zpow m e)]

theorem HasMagnitude.isCanonical {s : Sign} {y : ℝ} {u : UnpackedFloat} (hu : HasMagnitude s y u) :
    IsCanonical u := by
  cases u with
  | finite s' m e hm => exact hu.2.1
  | _ => trivial

theorem settle_of_isStored {u : UnpackedFloat} (hu : IsStored u) : settle u = u := by
  cases u with
  | finite s m e hm =>
      have hle := hu.2
      rw [settle, if_neg (by omega)]
  | _ => rfl

theorem IsStored.isCanonical {u : UnpackedFloat} (hu : IsStored u) : IsCanonical u := by
  cases u with
  | finite s m e hm => exact hu.1
  | _ => trivial

theorem nearestDouble_signed (s : Sign) (y : ℝ) :
    nearestDouble (signFactor s * y) = signFactor s * nearestDouble y := by
  rcases signFactor_cases s with h | h <;> simp [h, nearestDouble_neg]

theorem nearestDouble_fields {m : ℕ} {e : ℤ} (hfields : CanonicalFields m e) :
    nearestDouble (m * 2 ^ e) = m * 2 ^ e := by
  have hm : |(m : ℤ)| < 2 ^ 53 := by
    have := hfields.mantissa_lt
    rw [Nat.abs_cast]
    exact_mod_cast this
  exact_mod_cast nearestDouble_of_lt hm hfields.exponent_ge

@[simp] theorem rounded_zero : rounded 0 = 0 := by
  have hzero : rounded ((0 : ℝ) : EReal) = overflow 0 := by rw [rounded_coe, nearestDouble_zero]
  rw [← EReal.coe_zero, hzero, overflow_of_abs_lt (by rw [abs_zero]; exact overflowBound_pos)]

theorem rounded_unpackedValue {u : UnpackedFloat} (hu : IsStored u) :
    rounded (unpackedValue u) = unpackedValue u := by
  cases u with
  | infinity s => cases s <;> rfl
  | notANumber => exact rounded_zero
  | zero s => exact rounded_zero
  | finite s m e hm =>
      obtain ⟨hfields, hle⟩ := hu
      rw [unpackedValue, rounded_coe, nearestDouble_signed, nearestDouble_fields hfields,
        overflow_of_abs_lt]
      rw [abs_signFactor_mul, abs_of_nonneg (nonneg_mantissa_mul_zpow m e)]
      exact mantissa_mul_zpow_lt hfields.mantissa_lt hle

/-! ## Computations on unpacked numbers -/

/-- A computation comes to an exact value: it can be packed, and unless it has no result, what is
packed has the rounded value. -/
structure Computes (u : UnpackedFloat) (x : EReal) : Prop where
  canonical : IsCanonical u
  value_eq : u.isNaN = false → unpackedValue (settle u) = rounded x

theorem computes_notANumber (x : EReal) : Computes .notANumber x :=
  ⟨trivial, fun h => nomatch h⟩

theorem computes_stored {u : UnpackedFloat} (hu : IsStored u) : Computes u (unpackedValue u) :=
  ⟨hu.isCanonical, fun _ => by rw [settle_of_isStored hu, rounded_unpackedValue hu]⟩

theorem computes_of_hasMagnitude {s : Sign} {y : ℝ} {u : UnpackedFloat}
    (hu : HasMagnitude s (nearestDouble y) u) : Computes u (signFactor s * y : ℝ) := by
  refine ⟨hu.isCanonical, fun _ => ?_⟩
  rw [unpackedValue_settle hu, rounded_coe, nearestDouble_signed]

theorem decreaseExponent_value (m : ℕ) {e t : ℤ} (ht : t ≤ e) :
    ((decreaseExponent m e t).1 : ℝ) * 2 ^ t = m * 2 ^ e := by
  obtain ⟨k, hk⟩ := Int.le.dest ht
  have hshift : (e - t).toNat = k := by omega
  rw [decreaseExponent, hshift, Nat.shiftLeft_eq, ← hk, add_comm, zpow_add₀ two_ne_zero,
    zpow_natCast]
  push_cast
  ring

theorem decreaseExponent_snd (m : ℕ) (e t : ℤ) : (decreaseExponent m e t).2 = min e t := by
  rw [decreaseExponent]
  omega

theorem decreaseExponent_value_min (m : ℕ) (e t : ℤ) :
    ((decreaseExponent m e t).1 : ℝ) * 2 ^ min e t = m * 2 ^ e := by
  rcases le_total t e with h | h
  · rw [min_eq_right h, decreaseExponent_value m h]
  · have hshift : (e - t).toNat = 0 := by omega
    rw [min_eq_left h, decreaseExponent, hshift, Nat.shiftLeft_zero]

theorem hasMagnitude_round {m : ℕ} (hm : 0 < m) (e : ℤ) (s : Sign) :
    HasMagnitude s (nearestDouble (m * 2 ^ e)) (UnpackedFloat.round .binary64 s m e) := by
  have hpos : (0 : ℝ) < m * 2 ^ e := mul_pos (by exact_mod_cast hm) (zpow_pos two_pos e)
  have htarget : Format.binary64.targetExponent (totalExponent m e) = unitExponent (m * 2 ^ e) := by
    have := targetExponent_eq_unitExponent (e := e) ⟨le_rfl, one_pos⟩ hm
    rwa [add_zero] at this
  rw [UnpackedFloat.round, htarget]
  let lowered := decreaseExponent m e (unitExponent (m * 2 ^ e))
  have hexponent : lowered.2 = min e (unitExponent (m * 2 ^ e)) := decreaseExponent_snd _ _ _
  have hvalue : (m : ℝ) * 2 ^ e = (lowered.1 + 0) * 2 ^ lowered.2 := by
    rw [add_zero, hexponent, decreaseExponent_value_min]
  have hle : lowered.2 ≤ unitExponent (m * 2 ^ e) := hexponent ▸ min_le_right _ _
  exact hasMagnitude_roundWithAccuracy describes_exact hvalue hpos hle s

theorem computes_normalize (n e : ℤ) :
    Computes (UnpackedFloat.normalize .binary64 n e .positive) (n * 2 ^ e : ℝ) := by
  unfold UnpackedFloat.normalize
  rcases lt_trichotomy n 0 with hn | rfl | hn
  · have hcompare : compare n 0 = .lt := compare_lt_iff_lt.mpr hn
    have hnat : ((-n).toNat : ℝ) = -n := by
      have : ((-n).toNat : ℤ) = -n := by omega
      exact_mod_cast this
    have hround := computes_of_hasMagnitude
      (hasMagnitude_round (show 0 < (-n).toNat by omega) e .negative)
    rw [signFactor, hnat, neg_one_mul, neg_mul, neg_neg] at hround
    simpa only [hcompare] using hround
  · have hzero := computes_stored (u := .zero .positive) trivial
    rw [Int.cast_zero, zero_mul]
    exact hzero
  · have hcompare : compare n 0 = .gt := compare_gt_iff_gt.mpr hn
    have hnat : (n.toNat : ℝ) = n := by
      have : (n.toNat : ℤ) = n := by omega
      exact_mod_cast this
    have hround := computes_of_hasMagnitude
      (hasMagnitude_round (show 0 < n.toNat by omega) e .positive)
    rw [signFactor, hnat, one_mul] at hround
    simpa only [hcompare] using hround

theorem Computes.of_stored {u : UnpackedFloat} {x : EReal} (hu : IsStored u)
    (hvalue : unpackedValue u = x) : Computes u x :=
  hvalue ▸ computes_stored hu

theorem signFactor_mul_apply (s : Sign) (n : ℤ) : ((s.apply n : ℤ) : ℝ) = signFactor s * n := by
  cases s <;> simp [Sign.apply, signFactor]

theorem infinity_add_value (s : Sign) (x : ℝ) :
    unpackedValue (.infinity s) + x = unpackedValue (.infinity s) := by
  cases s
  · exact EReal.bot_add _
  · exact EReal.top_add_coe x

theorem computes_add {a b : UnpackedFloat} (ha : IsStored a) (hb : IsStored b) :
    Computes (UnpackedFloat.add .binary64 a b) (unpackedValue a + unpackedValue b) := by
  cases a with
  | notANumber => exact computes_notANumber _
  | infinity s₁ =>
      cases b with
      | notANumber => exact computes_notANumber _
      | infinity s₂ =>
          cases s₁ <;> cases s₂
          · exact .of_stored trivial rfl
          · exact computes_notANumber _
          · exact computes_notANumber _
          · exact .of_stored trivial rfl
      | zero s₂ => exact .of_stored trivial (infinity_add_value s₁ 0).symm
      | finite s₂ m₂ e₂ h₂ => exact .of_stored trivial (infinity_add_value s₁ _).symm
  | zero s₁ =>
      cases b with
      | notANumber => exact computes_notANumber _
      | infinity s₂ =>
          refine .of_stored trivial ?_
          rw [add_comm]
          exact (infinity_add_value s₂ 0).symm
      | zero s₂ => cases s₁ <;> cases s₂ <;> exact .of_stored trivial (zero_add _).symm
      | finite s₂ m₂ e₂ h₂ => exact .of_stored hb (zero_add _).symm
  | finite s₁ m₁ e₁ h₁ =>
      cases b with
      | notANumber => exact computes_notANumber _
      | infinity s₂ =>
          refine .of_stored trivial ?_
          rw [add_comm]
          exact (infinity_add_value s₂ _).symm
      | zero s₂ => exact .of_stored ha (add_zero _).symm
      | finite s₂ m₂ e₂ h₂ =>
          have hsum : ((s₁.apply (decreaseExponent m₁ e₁ (min e₁ e₂)).1 +
              s₂.apply (decreaseExponent m₂ e₂ (min e₁ e₂)).1 : ℤ) : ℝ) * 2 ^ min e₁ e₂ =
                signFactor s₁ * (m₁ * 2 ^ e₁) + signFactor s₂ * (m₂ * 2 ^ e₂) := by
            rw [Int.cast_add, signFactor_mul_apply, signFactor_mul_apply, add_mul, mul_assoc,
              mul_assoc, Int.cast_natCast, Int.cast_natCast,
              decreaseExponent_value m₁ (min_le_left e₁ e₂),
              decreaseExponent_value m₂ (min_le_right e₁ e₂)]
          have hround := computes_normalize (s₁.apply (decreaseExponent m₁ e₁ (min e₁ e₂)).1 +
              s₂.apply (decreaseExponent m₂ e₂ (min e₁ e₂)).1) (min e₁ e₂)
          rw [hsum, EReal.coe_add] at hround
          exact hround

theorem signFactor_neg (s : Sign) : signFactor (-s) = -signFactor s := by
  cases s
  · exact (neg_neg (1 : ℝ)).symm
  · rfl

theorem unpackedValue_neg (u : UnpackedFloat) : unpackedValue u.neg = -unpackedValue u := by
  cases u with
  | infinity s => cases s <;> rfl
  | notANumber => exact (neg_zero).symm
  | zero s => exact (neg_zero).symm
  | finite s m e hm =>
      change ((signFactor (-s) * (m * 2 ^ e) : ℝ) : EReal) =
        -((signFactor s * (m * 2 ^ e) : ℝ) : EReal)
      rw [signFactor_neg, neg_mul, EReal.coe_neg]

theorem IsStored.neg {u : UnpackedFloat} (hu : IsStored u) : IsStored u.neg := by
  cases u <;> exact hu

theorem sub_eq_add_neg_unpacked (a b : UnpackedFloat) :
    UnpackedFloat.sub .binary64 a b = UnpackedFloat.add .binary64 a b.neg := by
  have hsign (s : Sign) (n : ℤ) : (-s).apply n = -s.apply n := by
    cases s
    · exact (neg_neg n).symm
    · rfl
  cases a <;> cases b <;>
    simp only [UnpackedFloat.sub, UnpackedFloat.add, UnpackedFloat.neg, hsign, Int.sub_eq_add_neg]

theorem signFactor_mul (s t : Sign) : signFactor (s * t) = signFactor s * signFactor t := by
  cases s <;> cases t
  · exact ((neg_mul_neg (1 : ℝ) 1).trans (one_mul 1)).symm
  · exact (mul_one (-1 : ℝ)).symm
  · exact (one_mul (-1 : ℝ)).symm
  · exact (one_mul (1 : ℝ)).symm

theorem infinity_mul_value (s t : Sign) {y : ℝ} (hy : 0 < y) :
    unpackedValue (.infinity s) * (signFactor t * y : ℝ) = unpackedValue (.infinity (s * t)) := by
  have hpos : 0 < signFactor .positive * y := by rwa [signFactor, one_mul]
  have hneg : signFactor .negative * y < 0 := by
    rw [signFactor, neg_one_mul]
    exact neg_neg_of_pos hy
  cases s <;> cases t
  · exact EReal.bot_mul_coe_of_neg hneg
  · exact EReal.bot_mul_coe_of_pos hpos
  · exact EReal.top_mul_coe_of_neg hneg
  · exact EReal.top_mul_coe_of_pos hpos

theorem sign_mul_comm (s t : Sign) : s * t = t * s := by
  cases s <;> cases t <;> rfl

theorem pos_mantissa_mul_zpow {m : ℕ} (hm : 0 < m) (e : ℤ) : 0 < (m : ℝ) * 2 ^ e :=
  mul_pos (by exact_mod_cast hm) (zpow_pos two_pos e)

theorem add_exponents_le_unitExponent {m₁ m₂ : ℕ} {e₁ e₂ : ℤ} (h₁ : CanonicalFields m₁ e₁)
    (h₂ : CanonicalFields m₂ e₂) (hm₁ : 0 < m₁) (hm₂ : 0 < m₂) :
    e₁ + e₂ ≤ unitExponent ((m₁ * m₂ : ℕ) * 2 ^ (e₁ + e₂)) := by
  have hfull (hfull : 2 ^ 52 ≤ m₁ * m₂) :
      e₁ + e₂ ≤ unitExponent ((m₁ * m₂ : ℕ) * 2 ^ (e₁ + e₂)) := by
    apply le_unitExponent
    rw [add_comm, zpow_add₀ two_ne_zero]
    exact mul_le_mul_of_nonneg_right (by exact_mod_cast hfull) (zpow_pos two_pos _).le
  -- One factor that fills its mantissa makes the product wide enough; two tiny ones leave the
  -- exponent of the product far below the least one.
  rcases h₁.normal with hnormal₁ | htiny₁
  · exact hfull (hnormal₁.trans (Nat.le_mul_of_pos_right m₁ hm₂))
  rcases h₂.normal with hnormal₂ | htiny₂
  · exact hfull (hnormal₂.trans (Nat.le_mul_of_pos_left m₂ hm₁))
  · have hleast : -1074 ≤ unitExponent ((m₁ * m₂ : ℕ) * 2 ^ (e₁ + e₂)) := le_max_right _ _
    omega

theorem computes_mul {a b : UnpackedFloat} (ha : IsStored a) (hb : IsStored b) :
    Computes (UnpackedFloat.mul .binary64 a b) (unpackedValue a * unpackedValue b) := by
  cases a with
  | notANumber => exact computes_notANumber _
  | infinity s₁ =>
      cases b with
      | notANumber => exact computes_notANumber _
      | infinity s₂ => cases s₁ <;> cases s₂ <;> exact .of_stored trivial rfl
      | zero s₂ => exact computes_notANumber _
      | finite s₂ m₂ e₂ h₂ =>
          exact .of_stored trivial (infinity_mul_value s₁ s₂ (pos_mantissa_mul_zpow h₂ e₂)).symm
  | zero s₁ =>
      cases b with
      | notANumber => exact computes_notANumber _
      | infinity s₂ => exact computes_notANumber _
      | zero s₂ => exact .of_stored trivial (zero_mul _).symm
      | finite s₂ m₂ e₂ h₂ => exact .of_stored trivial (zero_mul _).symm
  | finite s₁ m₁ e₁ h₁ =>
      cases b with
      | notANumber => exact computes_notANumber _
      | infinity s₂ =>
          have hvalue := infinity_mul_value s₂ s₁ (pos_mantissa_mul_zpow h₁ e₁)
          rw [sign_mul_comm, mul_comm] at hvalue
          exact .of_stored trivial hvalue.symm
      | zero s₂ => exact .of_stored trivial (mul_zero _).symm
      | finite s₂ m₂ e₂ h₂ =>
          have hpos := pos_mantissa_mul_zpow (Nat.mul_pos h₁ h₂) (e₁ + e₂)
          have hround := computes_of_hasMagnitude (hasMagnitude_roundWithAccuracy
            describes_exact (by rw [add_zero]) hpos
            (add_exponents_le_unitExponent ha.1 hb.1 h₁ h₂) (s₁ * s₂))
          have hvalue : signFactor (s₁ * s₂) * ((m₁ * m₂ : ℕ) * 2 ^ (e₁ + e₂)) =
              signFactor s₁ * (m₁ * 2 ^ e₁) * (signFactor s₂ * (m₂ * 2 ^ e₂)) := by
            rw [signFactor_mul, zpow_add₀ two_ne_zero]
            push_cast
            ring
          rw [hvalue, EReal.coe_mul] at hround
          exact hround

theorem describes_accuracyOfFraction {r d : ℕ} (hr : r < d) :
    Describes (accuracyOfFraction r d) (r / d) := by
  have hd : (0 : ℝ) < d := by exact_mod_cast (Nat.zero_le r).trans_lt hr
  unfold accuracyOfFraction
  split_ifs with hzero
  · rw [hzero, Nat.cast_zero, zero_div]
    exact describes_exact
  have hr0 : (0 : ℝ) < r := by exact_mod_cast Nat.pos_of_ne_zero hzero
  rcases lt_trichotomy (2 * r) d with hlt | heq | hgt
  · have hcast : (2 : ℝ) * r < d := by exact_mod_cast hlt
    rw [compare_lt_iff_lt.mpr hlt]
    refine ⟨div_pos hr0 hd, ?_⟩
    rw [div_lt_iff₀ hd]
    linarith
  · have hcast : (2 : ℝ) * r = d := by exact_mod_cast heq
    rw [compare_eq_iff_eq.mpr heq]
    change (r : ℝ) / d = 1 / 2
    rw [div_eq_iff hd.ne']
    linarith
  · have hcast : (d : ℝ) < 2 * r := by exact_mod_cast hgt
    have hlt : (r : ℝ) < d := by exact_mod_cast hr
    rw [compare_gt_iff_gt.mpr hgt]
    refine ⟨?_, (div_lt_one hd).mpr hlt⟩
    rw [lt_div_iff₀ hd]
    linarith

/-- A quotient is at least as large as the quotient of the leading powers of two, but for one. -/
theorem zpow_log2_sub_le_div {m₁ m₂ : ℕ} (h₁ : 0 < m₁) (h₂ : 0 < m₂) :
    (2 : ℝ) ^ ((m₁.log2 : ℤ) - m₂.log2 - 1) ≤ m₁ / m₂ := by
  have hlow : (2 : ℝ) ^ m₁.log2 ≤ m₁ := by exact_mod_cast Nat.log2_self_le h₁.ne'
  have hhigh : (m₂ : ℝ) ≤ 2 ^ (m₂.log2 + 1) := by
    exact_mod_cast (Nat.lt_log2_self (n := m₂)).le
  have hpos : (0 : ℝ) < m₂ := by exact_mod_cast h₂
  have hsplit : (m₁.log2 : ℤ) - m₂.log2 - 1 = (m₁.log2 : ℤ) - (m₂.log2 + 1 : ℕ) := by
    push_cast
    ring
  rw [hsplit, zpow_sub₀ two_ne_zero, zpow_natCast, zpow_natCast]
  exact div_le_div₀ (Nat.cast_nonneg m₁) hlow hpos hhigh

theorem quotient_eq_scaled (m₁ m₂ : ℕ) (e₁ e₂ : ℤ) :
    (m₁ : ℝ) * 2 ^ e₁ / (m₂ * 2 ^ e₂) = m₁ / m₂ * 2 ^ (e₁ - e₂) := by
  rw [zpow_sub₀ two_ne_zero, mul_div_mul_comm]

theorem natCast_div_add_mod {d : ℕ} (hd : 0 < d) (n : ℕ) :
    ((n / d : ℕ) : ℝ) + ((n % d : ℕ) : ℝ) / d = n / d := by
  have hpos : (0 : ℝ) < d := by exact_mod_cast hd
  have hdivmod : ((d * (n / d) + n % d : ℕ) : ℝ) = n := congrArg _ (Nat.div_add_mod n d)
  rw [eq_div_iff hpos.ne', add_mul, div_mul_cancel₀ _ hpos.ne']
  push_cast at hdivmod
  linarith

theorem log2_sub_le_unitExponent {m₁ m₂ : ℕ} (h₁ : 0 < m₁) (h₂ : 0 < m₂) (e₁ e₂ : ℤ) :
    ((m₁.log2 : ℤ) + 1 + e₁) - ((m₂.log2 : ℤ) + 1 + e₂) - 53 ≤
      unitExponent (m₁ * 2 ^ e₁ / (m₂ * 2 ^ e₂)) := by
  apply le_unitExponent
  have hsplit : ((m₁.log2 : ℤ) + 1 + e₁) - ((m₂.log2 : ℤ) + 1 + e₂) - 53 + 52 =
      ((m₁.log2 : ℤ) - m₂.log2 - 1) + (e₁ - e₂) := by ring
  rw [hsplit, zpow_add₀ two_ne_zero, quotient_eq_scaled]
  exact mul_le_mul_of_nonneg_right (zpow_log2_sub_le_div h₁ h₂) (zpow_pos two_pos _).le

/-- The quotient of the mantissas, shifted far enough, and what is left over place the exact
quotient. -/
theorem hasMagnitude_divCore {m₁ m₂ : ℕ} (h₁ : 0 < m₁) (h₂ : 0 < m₂) (e₁ e₂ : ℤ) (s : Sign) :
    let quotient := divCore .binary64 m₁ e₁ m₂ e₂
    HasMagnitude s (nearestDouble (m₁ * 2 ^ e₁ / (m₂ * 2 ^ e₂)))
      (roundWithAccuracy .binary64 s quotient.1 quotient.2.1 quotient.2.2) := by
  intro quotient
  have hpos : (0 : ℝ) < m₁ * 2 ^ e₁ / (m₂ * 2 ^ e₂) :=
    div_pos (pos_mantissa_mul_zpow h₁ e₁) (pos_mantissa_mul_zpow h₂ e₂)
  have hexponent : quotient.2.1 = min (e₁ - e₂)
      (max (((m₁.log2 : ℤ) + 1 + e₁) - ((m₂.log2 : ℤ) + 1 + e₂) - 53) (-1074)) := rfl
  obtain ⟨k, hk⟩ := Int.le.dest (show quotient.2.1 ≤ e₁ - e₂ by omega)
  have hshift : (e₁ - e₂ - quotient.2.1).toNat = k := by omega
  have hmantissa : quotient.1 = m₁ * 2 ^ k / m₂ := by
    have hcore : quotient.1 = (m₁ <<< (e₁ - e₂ - quotient.2.1).toNat) / m₂ := rfl
    rw [hcore, hshift, Nat.shiftLeft_eq]
  have haccuracy : quotient.2.2 = accuracyOfFraction (m₁ * 2 ^ k % m₂) m₂ := by
    have hcore : quotient.2.2 =
        accuracyOfFraction ((m₁ <<< (e₁ - e₂ - quotient.2.1).toNat) % m₂) m₂ := rfl
    rw [hcore, hshift, Nat.shiftLeft_eq]
  have hvalue : (m₁ : ℝ) * 2 ^ e₁ / (m₂ * 2 ^ e₂) =
      (quotient.1 + ((m₁ * 2 ^ k % m₂ : ℕ) : ℝ) / m₂) * 2 ^ quotient.2.1 := by
    rw [hmantissa, natCast_div_add_mod h₂, quotient_eq_scaled, ← hk, add_comm,
      zpow_add₀ two_ne_zero, zpow_natCast]
    push_cast
    ring
  have hle : quotient.2.1 ≤ unitExponent (m₁ * 2 ^ e₁ / (m₂ * 2 ^ e₂)) := by
    have hleast : -1074 ≤ unitExponent (m₁ * 2 ^ e₁ / (m₂ * 2 ^ e₂)) := le_max_right _ _
    have hreach := log2_sub_le_unitExponent h₁ h₂ e₁ e₂
    omega
  refine hasMagnitude_roundWithAccuracy ?_ hvalue hpos hle s
  rw [haccuracy]
  exact describes_accuracyOfFraction (Nat.mod_lt _ h₂)

theorem sign_div_eq_mul (s t : Sign) : s / t = s * t := by
  cases s <;> cases t <;> rfl

theorem div_signFactor (s : Sign) (x y : ℝ) :
    x / (signFactor s * y) = signFactor s * (x / y) := by
  rcases signFactor_cases s with h | h
  · rw [h, one_mul, one_mul]
  · rw [h, neg_one_mul, neg_one_mul, div_neg]

theorem infinity_div_value (s t : Sign) {y : ℝ} (hy : 0 < y) :
    unpackedValue (.infinity s) / (signFactor t * y : ℝ) = unpackedValue (.infinity (s / t)) := by
  have hinv : ((signFactor t * y : ℝ) : EReal)⁻¹ = (signFactor t * y⁻¹ : ℝ) := by
    rw [← EReal.coe_inv, ← one_div, div_signFactor, one_div]
  rw [EReal.div_eq_inv_mul, hinv, mul_comm, infinity_mul_value s t (inv_pos.mpr hy),
    sign_div_eq_mul]

theorem div_infinity_value (x : EReal) (s : Sign) : x / unpackedValue (.infinity s) = 0 := by
  cases s
  · exact EReal.div_bot
  · exact EReal.div_top

/-- Dividing by zero is left out: it makes an infinity, or nothing. -/
theorem computes_div {a b : UnpackedFloat} (ha : IsStored a) (hb : IsStored b)
    (hzero : unpackedValue b ≠ 0) :
    Computes (UnpackedFloat.div .binary64 a b) (unpackedValue a / unpackedValue b) := by
  cases b with
  | notANumber => exact absurd rfl hzero
  | zero s₂ => exact absurd rfl hzero
  | infinity s₂ =>
      cases a with
      | notANumber => exact computes_notANumber _
      | infinity s₁ => exact computes_notANumber _
      | zero s₁ => exact .of_stored trivial (div_infinity_value _ s₂).symm
      | finite s₁ m₁ e₁ h₁ => exact .of_stored trivial (div_infinity_value _ s₂).symm
  | finite s₂ m₂ e₂ h₂ =>
      cases a with
      | notANumber => exact computes_notANumber _
      | infinity s₁ =>
          exact .of_stored trivial (infinity_div_value s₁ s₂ (pos_mantissa_mul_zpow h₂ e₂)).symm
      | zero s₁ => exact .of_stored trivial EReal.zero_div.symm
      | finite s₁ m₁ e₁ h₁ =>
          have hround := computes_of_hasMagnitude (hasMagnitude_divCore h₁ h₂ e₁ e₂ (s₁ / s₂))
          have hvalue : signFactor (s₁ / s₂) * (m₁ * 2 ^ e₁ / (m₂ * 2 ^ e₂)) =
              signFactor s₁ * (m₁ * 2 ^ e₁) / (signFactor s₂ * (m₂ * 2 ^ e₂)) := by
            rw [div_signFactor, sign_div_eq_mul, signFactor_mul]
            ring
          rw [hvalue, EReal.coe_div] at hround
          exact hround

/-! ## Computations that have a result -/

theorem isFinite_unpacked_iff (u : UnpackedFloat) :
    u.isFinite = true ↔ u.isNaN = false ∧ unpackedValue u ≠ ⊤ ∧ unpackedValue u ≠ ⊥ := by
  cases u with
  | infinity s => cases s <;> simp [isFinite, isNaN, unpackedValue]
  | notANumber => simp [isFinite, isNaN]
  | zero s => simp [isFinite, isNaN, unpackedValue]
  | finite s m e hm => exact iff_of_true rfl ⟨rfl, EReal.coe_ne_top _, EReal.coe_ne_bot _⟩

theorem isNaN_roundWithAccuracy (s : Sign) (m : ℕ) (e : ℤ) (acc : Accuracy) :
    (roundWithAccuracy .binary64 s m e acc).isNaN = false := by
  simp only [roundWithAccuracy]
  split_ifs <;> rfl

theorem isNaN_normalize (n e : ℤ) :
    (UnpackedFloat.normalize .binary64 n e .positive).isNaN = false := by
  unfold UnpackedFloat.normalize
  split
  · exact isNaN_roundWithAccuracy _ _ _ _
  · rfl
  · exact isNaN_roundWithAccuracy _ _ _ _

variable {a b : UnpackedFloat}

theorem isNumber_operands_add (h : (UnpackedFloat.add .binary64 a b).isNaN = false) :
    a.isNaN = false ∧ b.isNaN = false := by
  cases a <;> cases b <;> first | exact ⟨rfl, rfl⟩ | contradiction

theorem isNumber_operands_mul (h : (UnpackedFloat.mul .binary64 a b).isNaN = false) :
    a.isNaN = false ∧ b.isNaN = false := by
  cases a <;> cases b <;> first | exact ⟨rfl, rfl⟩ | contradiction

theorem isNumber_operands_div (h : (UnpackedFloat.div .binary64 a b).isNaN = false) :
    a.isNaN = false ∧ b.isNaN = false := by
  cases a <;> cases b <;> first | exact ⟨rfl, rfl⟩ | contradiction

theorem isFinite_operands_add (h : (UnpackedFloat.add .binary64 a b).isFinite = true) :
    a.isFinite = true ∧ b.isFinite = true := by
  cases a with
  | infinity s₁ =>
      cases b with
      | infinity s₂ => cases s₁ <;> cases s₂ <;> contradiction
      | _ => contradiction
  | notANumber => cases b <;> contradiction
  | _ => cases b <;> first | exact ⟨rfl, rfl⟩ | contradiction

theorem isFinite_operands_mul (h : (UnpackedFloat.mul .binary64 a b).isFinite = true) :
    a.isFinite = true ∧ b.isFinite = true := by
  cases a <;> cases b <;> first | exact ⟨rfl, rfl⟩ | contradiction

theorem isNaN_add (ha : a.isNaN = false) (hb : b.isNaN = false)
    (hopposite : unpackedValue a ≠ ⊤ ∨ unpackedValue b ≠ ⊥)
    (hopposite' : unpackedValue a ≠ ⊥ ∨ unpackedValue b ≠ ⊤) :
    (UnpackedFloat.add .binary64 a b).isNaN = false := by
  cases a with
  | notANumber => contradiction
  | infinity s₁ =>
      cases b with
      | notANumber => contradiction
      | infinity s₂ =>
          cases s₁ <;> cases s₂
          · rfl
          · simp [unpackedValue] at hopposite'
          · simp [unpackedValue] at hopposite
          · rfl
      | zero s₂ => rfl
      | finite s₂ m₂ e₂ h₂ => rfl
  | zero s₁ =>
      cases b with
      | notANumber => contradiction
      | infinity s₂ => rfl
      | zero s₂ => cases s₁ <;> cases s₂ <;> rfl
      | finite s₂ m₂ e₂ h₂ => rfl
  | finite s₁ m₁ e₁ h₁ =>
      cases b with
      | notANumber => contradiction
      | infinity s₂ => rfl
      | zero s₂ => rfl
      | finite s₂ m₂ e₂ h₂ => exact isNaN_normalize _ _

theorem isNaN_mul (ha : a.isNaN = false) (hb : b.isNaN = false)
    (hzero : unpackedValue a ≠ 0 ∨ b.isFinite = true)
    (hzero' : a.isFinite = true ∨ unpackedValue b ≠ 0) :
    (UnpackedFloat.mul .binary64 a b).isNaN = false := by
  cases a with
  | notANumber => contradiction
  | infinity s₁ =>
      cases b with
      | notANumber => contradiction
      | zero s₂ => simp [unpackedValue, isFinite] at hzero'
      | infinity s₂ => rfl
      | finite s₂ m₂ e₂ h₂ => rfl
  | zero s₁ =>
      cases b with
      | notANumber => contradiction
      | infinity s₂ => simp [unpackedValue, isFinite] at hzero
      | zero s₂ => rfl
      | finite s₂ m₂ e₂ h₂ => rfl
  | finite s₁ m₁ e₁ h₁ =>
      cases b with
      | notANumber => contradiction
      | infinity s₂ => rfl
      | zero s₂ => rfl
      | finite s₂ m₂ e₂ h₂ => exact isNaN_roundWithAccuracy _ _ _ _

theorem isNaN_div (ha : a.isNaN = false) (hb : b.isNaN = false) (hzero : unpackedValue b ≠ 0)
    (hfinite : a.isFinite = true ∨ b.isFinite = true) :
    (UnpackedFloat.div .binary64 a b).isNaN = false := by
  cases b with
  | notANumber => contradiction
  | zero s₂ => exact absurd rfl hzero
  | infinity s₂ =>
      cases a with
      | notANumber => contradiction
      | infinity s₁ => simp [isFinite] at hfinite
      | zero s₁ => rfl
      | finite s₁ m₁ e₁ h₁ => rfl
  | finite s₂ m₂ e₂ h₂ =>
      cases a with
      | notANumber => contradiction
      | infinity s₁ => rfl
      | zero s₁ => rfl
      | finite s₁ m₁ e₁ h₁ => exact isNaN_roundWithAccuracy _ _ _ _

end ObstacleWatch
