import ObstacleWatch.Proofs.RoundingError

/-!
# The words of a binary format

A word is read by its fields, and the logical model of floating-point numbers unpacks it to the same
number.  What a word stands for is held in one way only: the mantissa fills its width, or the
exponent is the smallest one.  So the sign and the magnitude of a finite number lead back to its
word.
-/

namespace ObstacleWatch

open Float.Model (Format UnpackedFloat)
open Float.Model.UnpackedFloat

/-! ## Words of the logical model -/

/-- A magnitude with a sign. -/
def signed (negative : Bool) (x : ℝ) : ℝ :=
  if negative then -x else x

/-- The field widths of a format of the logical model. -/
def BinaryFormat.ofModel (spec : Format) : BinaryFormat :=
  ⟨spec.mantissaBitsWithoutImplicit, spec.exponentBits⟩

section Words

variable {spec : Format} (word : BitVec spec.numBits)

theorem toNat_unpackMantissa :
    (unpackMantissa word).toNat = word.toNat % 2 ^ spec.mantissaBitsWithoutImplicit := by
  have hwidth : spec.mantissaBitsWithoutImplicit - 1 - 0 + 1 = spec.mantissaBitsWithoutImplicit :=
    Nat.sub_add_cancel spec.hm
  rw [unpackMantissa, BitVec.toNat_cast, BitVec.extractLsb_toNat, hwidth, Nat.shiftRight_zero]

theorem unpackSign_eq_zero_iff :
    unpackSign word = 0#1 ↔
      word.toNat < 2 ^ (spec.mantissaBitsWithoutImplicit + spec.exponentBits) := by
  have hbits : 2 ^ spec.numBits =
      2 * 2 ^ (spec.mantissaBitsWithoutImplicit + spec.exponentBits) := by
    rw [← Nat.pow_succ', Format.numBits]
    congr 1
    omega
  have hword : word.toNat / 2 ^ (spec.mantissaBitsWithoutImplicit + spec.exponentBits) < 2 :=
    Nat.div_lt_of_lt_mul (by rw [mul_comm, ← hbits]; exact word.isLt)
  have hbit : (unpackSign word).toNat =
      word.toNat / 2 ^ (spec.mantissaBitsWithoutImplicit + spec.exponentBits) := by
    rw [unpackSign, BitVec.toNat_cast, BitVec.extractLsb_toNat, Nat.sub_self,
      Nat.shiftRight_eq_div_pow]
    exact Nat.mod_eq_of_lt hword
  rw [← BitVec.toNat_inj, hbit]
  exact Nat.div_eq_zero_iff_lt (by positivity)

theorem signFactor_unpackSign (x : ℝ) :
    signFactor (Sign.ofBitVec (unpackSign word)) * x =
      signed (decide (2 ^ (spec.mantissaBitsWithoutImplicit + spec.exponentBits) ≤ word.toNat))
        x := by
  have hsign := unpackSign_eq_zero_iff word
  by_cases hsmall : word.toNat < 2 ^ (spec.mantissaBitsWithoutImplicit + spec.exponentBits)
  · rw [Sign.ofBitVec, if_pos (hsign.mpr hsmall), signed, decide_eq_false (Nat.not_le.mpr hsmall),
      signFactor, one_mul, if_neg Bool.false_ne_true]
  · rw [Sign.ofBitVec, if_neg fun hzero => hsmall (hsign.mp hzero), signed,
      decide_eq_true (Nat.not_lt.mp hsmall), signFactor, neg_one_mul, if_pos rfl]

theorem leastExponent_ofModel (spec : Format) :
    (BinaryFormat.ofModel spec).leastExponent =
      -((spec.exponentBias : ℤ) + spec.mantissaBitsWithoutImplicit) + 1 := by
  have hpow : 1 ≤ 2 ^ (spec.exponentBits - 1) := Nat.one_le_two_pow
  simp only [BinaryFormat.leastExponent, BinaryFormat.ofModel, Format.exponentBias, Int.pow_eq]
  push_cast [Nat.cast_sub hpow]
  ring

theorem decode_ofModel :
    Binary.decode (.ofModel spec) word.toNat =
      let negative :=
        decide (2 ^ (spec.mantissaBitsWithoutImplicit + spec.exponentBits) ≤ word.toNat)
      if unpackExponent word = -1#_ then
        if (unpackMantissa word).toNat = 0 then .infinite negative else .nan
      else if unpackExponent word = 0#_ then
        .finite negative (unpackMantissa word).toNat (BinaryFormat.ofModel spec).leastExponent
      else
        .finite negative (1#1 ++ unpackMantissa word).toNat
          ((BinaryFormat.ofModel spec).leastExponent + ((unpackExponent word).toNat - 1)) := by
  have hexponent := toNat_unpackExponent spec word
  have hones : unpackExponent word = -1#_ ↔
      word.toNat / 2 ^ spec.mantissaBitsWithoutImplicit % 2 ^ spec.exponentBits =
        2 ^ spec.exponentBits - 1 := by
    rw [← BitVec.toNat_inj, hexponent, BitVec.neg_one_eq_allOnes, BitVec.toNat_allOnes]
  have hzero : unpackExponent word = 0#_ ↔
      word.toNat / 2 ^ spec.mantissaBitsWithoutImplicit % 2 ^ spec.exponentBits = 0 := by
    rw [← BitVec.toNat_inj, hexponent, BitVec.toNat_ofNat, Nat.zero_mod]
  simp only [toNat_hiddenBit, toNat_unpackMantissa, hexponent, hones, hzero]
  rfl

/-- A word stands for the number that is read from its fields. -/
theorem unpackedValue_of_decode (spec : Format) (word : BitVec spec.numBits) {negative : Bool}
    {m : ℕ} {e : ℤ}
    (hdecode : Binary.decode (.ofModel spec) word.toNat = .finite negative m e) :
    unpackedValue (unpack spec word) = (signed negative (m * 2 ^ e) : ℝ) := by
  rw [decode_ofModel] at hdecode
  unfold Float.Model.UnpackedFloat.unpack
  dsimp only at hdecode ⊢
  by_cases hspecial : unpackExponent word = -1#_
  · rw [if_pos hspecial] at hdecode
    split at hdecode <;> cases hdecode
  rw [if_neg hspecial] at hdecode ⊢
  by_cases hsubnormal : unpackExponent word = 0#_
  · have hplace : ((unpackExponent word).toNat : ℤ) = 0 := by
      rw [hsubnormal]
      rfl
    rw [if_pos hsubnormal] at hdecode ⊢
    cases hdecode
    split_ifs with hnone
    · rw [hnone]
      simp [unpackedValue, signed]
    · rw [unpackedValue, signFactor_unpackSign, hplace, zero_sub, ← leastExponent_ofModel]
  · rw [if_neg hsubnormal] at hdecode ⊢
    cases hdecode
    rw [unpackedValue, signFactor_unpackSign, leastExponent_ofModel]
    ring_nf

end Words

/-! ## One word for a number -/

namespace BinaryFormat

/-- The magnitude `m * 2 ^ e` can be stored: its mantissa fills its width, or the exponent is the
smallest one. -/
structure Holds (f : BinaryFormat) (m : ℕ) (e : ℤ) : Prop where
  mantissa_lt : m < 2 ^ (f.fractionWidth + 1)
  exponent_ge : f.leastExponent ≤ e
  normal : 2 ^ f.fractionWidth ≤ m ∨ e = f.leastExponent

variable {f : BinaryFormat} {m m' : ℕ} {e e' : ℤ}

theorem Holds.exponent_le_of_value_eq (h : f.Holds m e) (h' : f.Holds m' e')
    (hvalue : (m * 2 ^ e : ℝ) = m' * 2 ^ e') : e' ≤ e := by
  by_contra hlt
  have hnormal : 2 ^ f.fractionWidth ≤ m' := h'.normal.resolve_right fun hleast => by
    have := h.exponent_ge
    omega
  have hplace : (0 : ℝ) < 2 ^ e := zpow_pos two_pos e
  have hpower : (2 : ℝ) * 2 ^ e ≤ 2 ^ e' := by
    rw [← zpow_one_add₀ two_ne_zero]
    exact zpow_le_zpow_right₀ one_le_two (by omega)
  have hlarge : (2 : ℝ) ^ (f.fractionWidth + 1) * 2 ^ e ≤ m * 2 ^ e :=
    calc (2 : ℝ) ^ (f.fractionWidth + 1) * 2 ^ e = 2 ^ f.fractionWidth * (2 * 2 ^ e) := by ring
      _ ≤ m' * 2 ^ e' :=
        mul_le_mul (by exact_mod_cast hnormal) hpower (by positivity) (Nat.cast_nonneg _)
      _ = m * 2 ^ e := hvalue.symm
  have hmantissa : 2 ^ (f.fractionWidth + 1) ≤ m := by
    exact_mod_cast le_of_mul_le_mul_right hlarge hplace
  exact absurd h.mantissa_lt (not_lt.mpr hmantissa)

/-- A format has one way to hold a magnitude. -/
theorem Holds.eq_of_value_eq (h : f.Holds m e) (h' : f.Holds m' e')
    (hvalue : (m * 2 ^ e : ℝ) = m' * 2 ^ e') : m = m' ∧ e = e' := by
  obtain rfl : e = e' := le_antisymm (h'.exponent_le_of_value_eq h hvalue.symm)
    (h.exponent_le_of_value_eq h' hvalue)
  have hplace : (2 : ℝ) ^ e ≠ 0 := (zpow_pos two_pos e).ne'
  exact ⟨by exact_mod_cast mul_right_cancel₀ hplace hvalue, rfl⟩

end BinaryFormat

namespace Binary

variable {f : BinaryFormat} {word word' : ℕ} {negative : Bool} {m : ℕ} {e : ℤ}

theorem negative_of_decode (hread : decode f word = .finite negative m e) :
    negative = decide (f.signWeight ≤ word) := by
  simp only [decode] at hread
  split_ifs at hread <;> cases hread <;> rfl

/-- What a word stands for is held by its format. -/
theorem holds_of_decode (hread : decode f word = .finite negative m e) : f.Holds m e := by
  have hfraction : word % 2 ^ f.fractionWidth < 2 ^ f.fractionWidth := Nat.mod_lt _ (by positivity)
  have hdouble : 2 ^ (f.fractionWidth + 1) = 2 ^ f.fractionWidth + 2 ^ f.fractionWidth := by ring
  simp only [decode, Nat.pow_eq] at hread
  split_ifs at hread with hones hnan hfield
  · cases hread
    exact ⟨by omega, le_rfl, .inr rfl⟩
  · cases hread
    exact ⟨by omega, by omega, .inl (Nat.le_add_right _ _)⟩

/-- The fields of a word are told by its number. -/
theorem fields_of_decode (hread : decode f word = .finite negative m e) :
    word % 2 ^ f.fractionWidth = m % 2 ^ f.fractionWidth ∧
      word / 2 ^ f.fractionWidth % 2 ^ f.exponentWidth =
        if m < 2 ^ f.fractionWidth then 0 else (e - f.leastExponent + 1).toNat := by
  have hfraction : word % 2 ^ f.fractionWidth < 2 ^ f.fractionWidth := Nat.mod_lt _ (by positivity)
  simp only [decode, Nat.pow_eq] at hread
  split_ifs at hread with hones hnan hfield
  · cases hread
    exact ⟨(Nat.mod_mod _ _).symm, by rw [if_pos hfraction, hfield]⟩
  · cases hread
    refine ⟨by rw [Nat.add_mod_left, Nat.mod_mod], ?_⟩
    rw [if_neg (by omega)]
    omega

theorem word_eq_of_decode (hword : word < 2 * f.signWeight) (hword' : word' < 2 * f.signWeight)
    (hread : decode f word = .finite negative m e)
    (hread' : decode f word' = .finite negative m e) : word = word' := by
  obtain ⟨hfraction, hfield⟩ := fields_of_decode hread
  obtain ⟨hfraction', hfield'⟩ := fields_of_decode hread'
  have hweight : f.signWeight = 2 ^ f.fractionWidth * 2 ^ f.exponentWidth := pow_add _ _ _
  have hlow : word % f.signWeight = word' % f.signWeight := by
    rw [hweight, Nat.mod_mul, Nat.mod_mul, hfraction, hfraction', hfield, hfield']
  have hhigh : word / f.signWeight = word' / f.signWeight := by
    have hsign : f.signWeight ≤ word ↔ f.signWeight ≤ word' :=
      decide_eq_decide.mp ((negative_of_decode hread).symm.trans (negative_of_decode hread'))
    have hquotient {n : ℕ} (hn : n < 2 * f.signWeight) :
        n / f.signWeight = if f.signWeight ≤ n then 1 else 0 := by
      split_ifs with hle
      · exact Nat.div_eq_of_lt_le (by rwa [one_mul]) hn
      · exact Nat.div_eq_of_lt (not_le.mp hle)
    rw [hquotient hword, hquotient hword', if_congr hsign rfl rfl]
  rw [← Nat.div_add_mod word f.signWeight, hlow, hhigh, Nat.div_add_mod]

/-- A format has one word for a magnitude with a sign. -/
theorem word_eq_of_value_eq {m' : ℕ} {e' : ℤ} (hword : word < 2 * f.signWeight)
    (hword' : word' < 2 * f.signWeight) (hread : decode f word = .finite negative m e)
    (hread' : decode f word' = .finite negative m' e')
    (hvalue : signed negative (m * 2 ^ e) = signed negative (m' * 2 ^ e')) : word = word' := by
  have hmagnitude : (m * 2 ^ e : ℝ) = m' * 2 ^ e' := by
    cases negative with
    | false => exact hvalue
    | true => exact neg_injective hvalue
  obtain ⟨rfl, rfl⟩ := (holds_of_decode hread).eq_of_value_eq (holds_of_decode hread') hmagnitude
  exact word_eq_of_decode hword hword' hread hread'

end Binary

/-! ## Singles and doubles -/

/-- A word of a format stands for the number `x`, unless it is not finite. -/
structure BinaryFormat.StandsFor (f : BinaryFormat) (word : ℕ) (finite : Bool) (x : ℝ) : Prop where
  word_lt : word < 2 * f.signWeight
  finite_iff : finite = true ↔
    ∃ negative m e, Binary.decode f word = .finite negative m e
  value_eq : ∀ {negative m e}, Binary.decode f word = .finite negative m e →
    x = signed negative (m * 2 ^ e)

/-- The value of a finite single as a real number. -/
noncomputable def realSingle (x : Float32) : ℝ :=
  (unpackedValue x.toModel.unpack).toReal

theorem standsFor_single (x : Float32) :
    BinaryFormat.StandsFor .single x.toBits.toNat x.isFinite (realSingle x) where
  word_lt := x.toBits.toNat_lt
  finite_iff := isFinite_single_iff_ofSingle
  value_eq hread := congrArg EReal.toReal
    (unpackedValue_of_decode .binary32 x.toBits.toBitVec hread)

theorem standsFor_double (x : Float) :
    BinaryFormat.StandsFor .double x.toBits.toNat x.isFinite (realValue x) where
  word_lt := x.toBits.toNat_lt
  finite_iff := isFinite_double_iff_ofFloat
  value_eq hread := congrArg EReal.toReal
    (unpackedValue_of_decode .binary64 x.toBits.toBitVec hread)

end ObstacleWatch
