import ObstacleWatch.Proofs.FloatFields

/-!
# Rounding of extended mantissas

A computation on doubles keeps two bits beside the mantissa: whether half a last place is left over,
and whether anything smaller is.  Together they place the exact result between two neighbouring
mantissas well enough to round it, and they stay right when the mantissa is shifted.  Hence the
result of a computation is the double nearest to the exact one, provided the exponent it starts with
is no larger than the exponent of the last place that the result has.
-/

namespace ObstacleWatch

open Float.Model (Format UnpackedFloat totalExponent)
open Float.Model.UnpackedFloat

theorem describes_exact : Describes .exact 0 := rfl

theorem Describes.mem_Ico {acc : Accuracy} {f : ℝ} (h : Describes acc f) : 0 ≤ f ∧ f < 1 := by
  rcases acc with _ | (_ | _ | _) <;> simp only [Describes] at h <;> constructor <;> linarith

theorem roundToNearestEven_eq {acc : Accuracy} {f : ℝ} (h : Describes acc f) (m : ℕ) :
    (acc.roundToNearestEven m : ℤ) = nearestInt (m + f) := by
  obtain ⟨hnonneg, hlt⟩ := h.mem_Ico
  have hfloor : ⌊(m : ℝ) + f⌋ = m := by
    rw [Int.floor_eq_iff]
    push_cast
    constructor <;> linarith
  have hfract : Int.fract ((m : ℝ) + f) = f := by
    rw [Int.fract, hfloor]
    push_cast
    ring
  have heven : Even (m : ℤ) ↔ m % 2 = 0 := by rw [Int.even_coe_nat, Nat.even_iff]
  unfold nearestInt
  rw [hfract, hfloor]
  simp only [heven]
  rcases acc with _ | (_ | _ | _) <;> simp only [Describes, Accuracy.roundToNearestEven] at h ⊢ <;>
    split_ifs <;> first | omega | linarith

/-- An extended mantissa stands for a number that it can round. -/
def StandsFor (em : ExtendedMantissa) (y : ℝ) : Prop :=
  Describes em.accuracy (y - em.mantissa)

theorem standsFor_ofMantissaAndAccuracy {acc : Accuracy} {f : ℝ} (h : Describes acc f) (m : ℕ) :
    StandsFor (.ofMantissaAndAccuracy m acc) (m + f) := by
  have hmantissa : (ExtendedMantissa.ofMantissaAndAccuracy m acc).mantissa = m := by
    rcases acc with _ | (_ | _ | _) <;> rfl
  have haccuracy : (ExtendedMantissa.ofMantissaAndAccuracy m acc).accuracy = acc := by
    rcases acc with _ | (_ | _ | _) <;> rfl
  rw [StandsFor, hmantissa, haccuracy, add_sub_cancel_left]
  exact h

theorem StandsFor.roundedMantissa {em : ExtendedMantissa} {y : ℝ} (h : StandsFor em y) :
    (em.roundedMantissa : ℤ) = nearestInt y := by
  have hround := roundToNearestEven_eq h em.mantissa
  rwa [add_sub_cancel] at hround

/-- The bit that is shifted out becomes the half, and the old half only tells that something is
left. -/
theorem describes_halved {m n : ℕ} {r s : Bool} {f : ℝ}
    (h : Describes (ExtendedMantissa.accuracy ⟨m, r, s⟩) f) (b : Bool) :
    Describes (ExtendedMantissa.accuracy ⟨n, b, r || s⟩) ((b.toNat + f) / 2) := by
  cases b <;> cases r <;> cases s <;>
    simp only [ExtendedMantissa.accuracy, Describes, Bool.toNat_false, Bool.toNat_true,
      Bool.or_false, Bool.or_true, Nat.cast_zero, Nat.cast_one] at h ⊢ <;>
    first | linarith | (constructor <;> linarith)

theorem StandsFor.shiftRightOne {em : ExtendedMantissa} {y : ℝ} (h : StandsFor em y) :
    StandsFor em.shiftRightOne (y / 2) := by
  obtain ⟨m, r, s⟩ := em
  have hbit : m % 2 = (m % 2 != 0).toNat := by
    rcases Nat.mod_two_eq_zero_or_one m with hm | hm <;> rw [hm] <;> rfl
  have hsplit : (m : ℝ) = 2 * (m / 2 : ℕ) + (m % 2 != 0).toNat := by
    rw [← hbit]
    exact_mod_cast (Nat.div_add_mod m 2).symm
  have hrest : y / 2 - (m / 2 : ℕ) = ((m % 2 != 0).toNat + (y - m)) / 2 := by linarith
  change Describes (ExtendedMantissa.accuracy ⟨m / 2, m % 2 != 0, r || s⟩) (y / 2 - (m / 2 : ℕ))
  rw [hrest]
  exact describes_halved h _

theorem StandsFor.shiftRight {em : ExtendedMantissa} {y : ℝ} (h : StandsFor em y) (n : ℕ) :
    StandsFor (em >>> n) (y / 2 ^ n) := by
  induction n with
  | zero =>
      rw [pow_zero, div_one]
      exact h
  | succ n ih =>
      rw [pow_succ, ← div_div]
      exact ih.shiftRightOne

/-! ## The exponent of the last place -/

theorem targetExponent_eq_unitExponent {m : ℕ} {e : ℤ} {f : ℝ} (hf : 0 ≤ f ∧ f < 1)
    (hm : 0 < m) :
    Format.binary64.targetExponent (totalExponent m e) = unitExponent ((m + f) * 2 ^ e) := by
  have hlow : (2 : ℝ) ^ ((m.log2 : ℤ) + e) ≤ (m + f) * 2 ^ e := by
    have hlog : (2 : ℝ) ^ m.log2 ≤ m := by exact_mod_cast Nat.log2_self_le hm.ne'
    rw [zpow_add₀ two_ne_zero, zpow_natCast]
    exact mul_le_mul_of_nonneg_right (by linarith) (zpow_pos two_pos e).le
  have hhigh : (m + f) * 2 ^ e < (2 : ℝ) ^ ((m.log2 : ℤ) + e + 1) := by
    have hlog : (m : ℝ) + 1 ≤ 2 ^ (m.log2 + 1) := by exact_mod_cast Nat.lt_log2_self
    have hexponent : (m.log2 : ℤ) + e + 1 = (m.log2 + 1 : ℕ) + e := by
      push_cast
      ring
    rw [hexponent, zpow_add₀ two_ne_zero, zpow_natCast]
    exact mul_lt_mul_of_pos_right (by linarith) (zpow_pos two_pos e)
  have hpos : 0 < (m + f) * 2 ^ e := (zpow_pos two_pos _).trans_le hlow
  rw [unitExponent, abs_of_pos hpos, log_two_eq hlow hhigh]
  change max ((m.log2 : ℤ) + 1 + e - 53) (-1074) = _
  omega

theorem targetExponent_zero_eq_unitExponent {e : ℤ} {f : ℝ} (hf : 0 < f ∧ f < 1)
    (he : e ≤ unitExponent (f * 2 ^ e)) :
    Format.binary64.targetExponent (totalExponent 0 e) = unitExponent (f * 2 ^ e) := by
  have hpos : 0 < f * 2 ^ e := mul_pos hf.1 (zpow_pos two_pos e)
  have hlog : Int.log 2 (f * 2 ^ e) < e := by
    have hlt : f * 2 ^ e < 2 ^ e := mul_lt_of_lt_one_left (zpow_pos two_pos e) hf.2
    exact (Int.lt_zpow_iff_log_lt Nat.one_lt_two hpos).mp (by exact_mod_cast hlt)
  have hunit : unitExponent (f * 2 ^ e) = max (Int.log 2 (f * 2 ^ e) - 52) (-1074) := by
    rw [unitExponent, abs_of_pos hpos]
  change max ((Nat.log2 0 : ℤ) + 1 + e - 53) (-1074) = _
  rw [Nat.log2_zero]
  omega

/-! ## Rounding a mantissa with an accuracy -/

/-- A mantissa that rounding has made too large by one bit ends in a zero bit. -/
theorem shiftToTargetExponent_rounded {m : ℕ} {e : ℤ} (hm : m ≤ 2 ^ 53) (he : -1074 ≤ e) :
    shiftToTargetExponent .binary64 m e .exact =
      if m < 2 ^ 53 then (⟨m, false, false⟩, e) else (⟨2 ^ 52, false, false⟩, e + 1) := by
  have htarget : Format.binary64.targetExponent (totalExponent m e) =
      max ((m.log2 : ℤ) + 1 + e - 53) (-1074) := rfl
  rw [shiftToTargetExponent, shiftToExponent, htarget]
  split_ifs with hlt
  · have hlog : m.log2 ≤ 52 := by
      rcases Nat.eq_zero_or_pos m with rfl | hpos
      · simp
      · exact Nat.le_of_lt_succ ((Nat.log2_lt hpos.ne').mpr hlt)
    have hshift : (max ((m.log2 : ℤ) + 1 + e - 53) (-1074) - e).toNat = 0 := by omega
    rw [hshift, Nat.cast_zero, add_zero]
    rfl
  · obtain rfl : m = 2 ^ 53 := by omega
    have hshift : (max (((2 ^ 53 : ℕ).log2 : ℤ) + 1 + e - 53) (-1074) - e).toNat = 1 := by
      rw [Nat.log2_two_pow]
      omega
    rw [hshift]
    rfl

theorem hasMagnitude_rounded (s : Sign) {m : ℕ} {e : ℤ} (hroom : m ≤ 2 ^ 53)
    (hleast : -1074 ≤ e) (hnormal : 2 ^ 52 ≤ m ∨ e = -1074) :
    let final := shiftToTargetExponent .binary64 m e .exact
    HasMagnitude s (m * 2 ^ e)
      (if h : final.1.mantissa = 0 then .zero s
        else .finite s final.1.mantissa final.2 (Nat.pos_of_ne_zero h)) := by
  simp only [shiftToTargetExponent_rounded hroom hleast]
  by_cases hlt : m < 2 ^ 53
  · simp only [if_pos hlt]
    split_ifs with hzero
    · exact ⟨rfl, by rw [hzero, Nat.cast_zero, zero_mul]⟩
    · exact ⟨rfl, ⟨hlt, hleast, hnormal⟩, rfl⟩
  · obtain rfl : m = 2 ^ 53 := by omega
    simp only [if_neg hlt]
    refine ⟨rfl, ⟨by decide, by omega, .inl le_rfl⟩, ?_⟩
    rw [zpow_add_one₀ two_ne_zero]
    push_cast
    ring

/-- Rounding gives the double nearest to the exact value. -/
theorem hasMagnitude_roundWithAccuracy {m : ℕ} {e : ℤ} {acc : Accuracy} {f x : ℝ}
    (hacc : Describes acc f) (hx : x = (m + f) * 2 ^ e) (hpos : 0 < x)
    (he : e ≤ unitExponent x) (s : Sign) :
    HasMagnitude s (nearestDouble x) (roundWithAccuracy .binary64 s m e acc) := by
  have htarget : Format.binary64.targetExponent (totalExponent m e) = unitExponent x := by
    rcases Nat.eq_zero_or_pos m with rfl | hm
    · rw [Nat.cast_zero, zero_add] at hx
      have hf : 0 < f := pos_of_mul_pos_left (hx ▸ hpos) (zpow_pos two_pos e).le
      rw [hx] at he ⊢
      exact targetExponent_zero_eq_unitExponent ⟨hf, hacc.mem_Ico.2⟩ he
    · rw [hx]
      exact targetExponent_eq_unitExponent hacc.mem_Ico hm
  obtain ⟨n, hn⟩ := Int.le.dest he
  let em := ExtendedMantissa.ofMantissaAndAccuracy m acc >>> n
  have hfirst : shiftToTargetExponent .binary64 m e acc = (em, unitExponent x) := by
    have hshift : (unitExponent x - e).toNat = n := by omega
    rw [shiftToTargetExponent, shiftToExponent, htarget, hshift, hn]
  have hscaled : ((m : ℝ) + f) / 2 ^ n = x / 2 ^ unitExponent x := by
    have hsplit : (2 : ℝ) ^ unitExponent x = 2 ^ n * 2 ^ e := by
      rw [← hn, add_comm, zpow_add₀ two_ne_zero, zpow_natCast]
    rw [hsplit, hx, mul_div_mul_right _ _ (zpow_pos two_pos e).ne']
  have hrounded : (em.roundedMantissa : ℤ) = nearestInt (x / 2 ^ unitExponent x) := by
    rw [← hscaled]
    exact ((standsFor_ofMantissaAndAccuracy hacc m).shiftRight n).roundedMantissa
  have hvalue : nearestDouble x = em.roundedMantissa * 2 ^ unitExponent x := by
    rw [nearestDouble, ← hrounded]
    rfl
  have hroom : em.roundedMantissa ≤ 2 ^ 53 := by
    have := nearestInt_scaled_le hpos
    omega
  have hnormal : 2 ^ 52 ≤ em.roundedMantissa ∨ unitExponent x = -1074 := by
    by_cases hunit : unitExponent x = -1074
    · exact .inr hunit
    · have := le_nearestInt_scaled hpos hunit
      exact .inl (by omega)
  rw [hvalue, roundWithAccuracy, hfirst]
  exact hasMagnitude_rounded s hroom (le_max_right _ _) hnormal

end ObstacleWatch
