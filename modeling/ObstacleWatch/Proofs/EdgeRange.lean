import ObstacleWatch.Detection
import ObstacleWatch.Proofs.FloatBounds

/-!
# The range of box edges and frame sizes

The edges of a box come in the 32-bit format and are widened, so those that are finite stay far from
the largest double; the same holds for frame sizes.  Whatever is computed from them with a few
operations has room to grow.
-/

namespace ObstacleWatch

open Float.Model (Format UnpackedFloat)
open Float.Model.UnpackedFloat

/-! ## Words -/

theorem unpack_ofBits (word : UInt64) :
    (Float.ofBits word).toModel.unpack = unpack .binary64 word.toBitVec := by
  have hstored : IsStored (unpack .binary64 word.toBitVec) := isStored_unpack _
  exact (unpack_pack_model hstored.isCanonical).trans (settle_of_isStored hstored)

theorem toNat_unpackExponent (spec : Format) (word : BitVec spec.numBits) :
    (unpackExponent word).toNat =
      word.toNat / 2 ^ spec.mantissaBitsWithoutImplicit % 2 ^ spec.exponentBits := by
  have hpos := spec.he
  have hwidth : spec.mantissaBitsWithoutImplicit + spec.exponentBits - 1 -
      spec.mantissaBitsWithoutImplicit + 1 = spec.exponentBits := by omega
  rw [unpackExponent, BitVec.toNat_cast, BitVec.extractLsb_toNat, hwidth,
    Nat.shiftRight_eq_div_pow]

theorem neg_zpow_le_unpackedValue (s : Sign) {m : ℕ} {e k : ℤ} (hpos : 0 < m) (hm : m < 2 ^ 53)
    (he : e ≤ k) : ((-2 ^ (53 + k) : ℝ) : EReal) ≤ unpackedValue (.finite s m e hpos) := by
  have hlt : |signFactor s * (m * 2 ^ e)| < 2 ^ (53 + k) := by
    rw [abs_signFactor_mul, abs_of_nonneg (nonneg_mantissa_mul_zpow m e)]
    exact mantissa_mul_zpow_lt_zpow hm he
  exact EReal.coe_le_coe_iff.mpr (neg_lt_of_abs_lt hlt).le

/-- The exponent field of a word bounds the magnitude of its number. -/
theorem neg_le_unpackedValue {word : BitVec 64} (hword : word.toNat / 2 ^ 52 % 2 ^ 11 < 1151) :
    ((-2 ^ (128 : ℤ) : ℝ) : EReal) ≤ unpackedValue (unpack .binary64 word) := by
  rw [← toNat_unpackExponent .binary64] at hword
  unfold Float.Model.UnpackedFloat.unpack
  simp only
  split_ifs with hones hmantissa hzero hmantissa
  · rw [hones] at hword
    exact absurd hword (by decide)
  · rw [hones] at hword
    exact absurd hword (by decide)
  · exact EReal.coe_nonpos.mpr (neg_nonpos.mpr (zpow_pos two_pos _).le)
  · refine neg_zpow_le_unpackedValue (k := 75) _ _ ?_ ?_
    · exact (BitVec.isLt _).trans (by decide)
    · rw [hzero]
      decide
  · refine neg_zpow_le_unpackedValue (k := 75) _ _ (BitVec.isLt _) ?_
    change ((@unpackExponent .binary64 word).toNat : ℤ) - 1075 ≤ 75
    omega

namespace Binary

/-- What a word of the 32-bit format can stand for. -/
inductive IsSingle : Binary → Prop where
  | nan : IsSingle .nan
  | infinite (negative : Bool) : IsSingle (.infinite negative)
  | finite (negative : Bool) {mantissa : Nat} {exponent : Int} (hmantissa : mantissa < 2 ^ 24)
      (hlow : -149 ≤ exponent) (hhigh : exponent ≤ 104) :
      IsSingle (.finite negative mantissa exponent)

theorem decode_single (word : Nat) : decode .single word =
    let negative := decide (BinaryFormat.single.signWeight ≤ word)
    if word / 2 ^ 23 % 2 ^ 8 = 255 then
      if word % 2 ^ 23 = 0 then .infinite negative else .nan
    else if word / 2 ^ 23 % 2 ^ 8 = 0 then .finite negative (word % 2 ^ 23) (-149)
    else
      .finite negative (2 ^ 23 + word % 2 ^ 23) (-149 + ((word / 2 ^ 23 % 2 ^ 8 : Nat) - 1)) := by
  rfl

theorem isSingle_decode (word : Nat) : (decode .single word).IsSingle := by
  rw [decode_single]
  dsimp only
  split_ifs with hones hfraction hfield
  · exact .infinite _
  · exact .nan
  · exact .finite _ (by omega) (by omega) (by omega)
  · exact .finite _ (by omega) (by omega) (by omega)

/-- The mantissa of a single has room for its whole shift into a double. -/
theorem shifted_mantissa_lt {mantissa : Nat} (hmantissa : mantissa < 2 ^ 24) :
    mantissa * 2 ^ (52 - mantissa.log2) < 2 ^ 53 := by
  by_cases hzero : mantissa = 0
  · rw [hzero, Nat.zero_mul]
    positivity
  · have hlog : mantissa.log2 < 24 := (Nat.log2_lt hzero).mpr hmantissa
    calc mantissa * 2 ^ (52 - mantissa.log2)
        < 2 ^ (mantissa.log2 + 1) * 2 ^ (52 - mantissa.log2) :=
          Nat.mul_lt_mul_of_pos_right Nat.lt_log2_self (by positivity)
      _ = 2 ^ 53 := by
          rw [← pow_add]
          congr 1
          omega

theorem magnitudeWord_lt {mantissa : Nat} {exponent : Int} (hmantissa : mantissa < 2 ^ 24)
    (hlow : -149 ≤ exponent) (hhigh : exponent ≤ 104) :
    magnitudeWord .double mantissa exponent < 1151 * 2 ^ 52 := by
  have hword : magnitudeWord .double mantissa exponent =
      if mantissa = 0 then 0
      else
        let place := max (exponent + mantissa.log2 - 52) (-1074)
        let rounded :=
          if place ≤ exponent then mantissa * 2 ^ (exponent - place).toNat
          else roundHalfEven mantissa (2 ^ (place - exponent).toNat)
        min ((place + 1074).toNat * 2 ^ 52 + rounded) BinaryFormat.double.infinityWord := by
    rfl
  rw [hword]
  split_ifs with hzero
  · positivity
  · have hlog : mantissa.log2 < 24 := (Nat.log2_lt hzero).mpr hmantissa
    have hplace : max (exponent + mantissa.log2 - 52) (-1074) = exponent + mantissa.log2 - 52 := by
      omega
    have hshift : (exponent - (exponent + mantissa.log2 - 52)).toNat = 52 - mantissa.log2 := by
      omega
    have hrounded := shifted_mantissa_lt hmantissa
    dsimp only
    rw [hplace, if_pos (by omega), hshift]
    refine (min_le_left _ _).trans_lt ?_
    omega

end Binary

theorem exponent_field_lt {magnitude : Nat} (hmagnitude : magnitude < 1151 * 2 ^ 52)
    (negative : Bool) :
    (magnitude + if negative then 2 ^ 63 else 0) % 2 ^ 64 / 2 ^ 52 % 2 ^ 11 < 1151 := by
  cases negative with
  | false =>
      simp only [Bool.false_eq_true, if_false]
      omega
  | true =>
      simp only [if_true]
      omega

theorem Binary.le_value_toFloat (negative : Bool) {mantissa : Nat} {exponent : Int}
    (hmantissa : mantissa < 2 ^ 24) (hlow : -149 ≤ exponent) (hhigh : exponent ≤ 104) :
    ((-2 ^ (128 : ℤ) : ℝ) : EReal) ≤ value (Binary.finite negative mantissa exponent).toFloat := by
  have hmagnitude := magnitudeWord_lt hmantissa hlow hhigh
  unfold value toFloat
  rw [unpack_ofBits]
  exact neg_le_unpackedValue (exponent_field_lt hmagnitude negative)

/-- A single that is widened is not a number, infinite, or below `2 ^ 128` in magnitude. -/
theorem Binary.IsSingle.le_value_toFloat {b : Binary} (hb : b.IsSingle)
    (hnumber : IsNumber b.toFloat) (hbottom : value b.toFloat ≠ ⊥) :
    ((-2 ^ (128 : ℤ) : ℝ) : EReal) ≤ value b.toFloat := by
  cases hb with
  | nan => contradiction
  | infinite negative =>
      cases negative with
      | false => exact le_top
      | true => contradiction
  | finite negative hmantissa hlow hhigh =>
      exact Binary.le_value_toFloat negative hmantissa hlow hhigh

theorem value_ofBits_of_unpack {word : UInt64} {s : Sign} {e : ℤ}
    (hunpack : unpack .binary64 word.toBitVec = .finite s (2 ^ 52) e (by positivity)) :
    value (Float.ofBits word) = ((signFactor s * 2 ^ (52 + e) : ℝ) : EReal) := by
  rw [value, unpack_ofBits, hunpack, unpackedValue, zpow_add₀ two_ne_zero]
  norm_num

/-- A widened edge is not a number, infinitely far up, or not far up. -/
theorem le_widen {x : Float32} (hnumber : IsNumber (widen x)) (hbottom : value (widen x) ≠ ⊥) :
    -4e38 ≤ widen x := by
  have hlow : -4e38 ≤ Float.ofBits 0xC7F0000000000000 := by decide +kernel
  have hleast : value (Float.ofBits 0xC7F0000000000000) =
      ((signFactor .negative * 2 ^ (52 + 76 : ℤ) : ℝ) : EReal) := value_ofBits_of_unpack rfl
  have hsingle : (Binary.ofSingle x).IsSingle := Binary.isSingle_decode _
  refine float_le_trans hlow (le_iff_value.mpr ⟨.right_of_le hlow, hnumber, ?_⟩)
  rw [hleast, signFactor, neg_one_mul]
  exact hsingle.le_value_toFloat hnumber hbottom

/-! ## Finite edges -/

def Box.edges (b : Box) : List Float32 :=
  [b.left, b.top, b.right, b.bottom]

theorem isFinite_unpack_iff (spec : Format) (word : BitVec spec.numBits) :
    (unpack spec word).isFinite = true ↔ ¬unpackExponent word = -1#_ := by
  unfold Float.Model.UnpackedFloat.unpack
  simp only
  split_ifs with hones
  · exact iff_of_false Bool.false_ne_true (not_not_intro hones)
  · exact iff_of_false Bool.false_ne_true (not_not_intro hones)
  · exact iff_of_true rfl hones
  · exact iff_of_true rfl hones
  · exact iff_of_true rfl hones

theorem isFinite_single_iff {x : Float32} :
    x.isFinite = true ↔ x.toBits.toNat / 2 ^ 23 % 2 ^ 8 ≠ 255 := by
  have hfield : @unpackExponent .binary32 x.toBits.toBitVec = -1#8 ↔
      x.toBits.toNat / 2 ^ 23 % 2 ^ 8 = 255 := by
    rw [← BitVec.toNat_inj, toNat_unpackExponent .binary32]
    rfl
  rw [ne_eq, ← hfield]
  exact isFinite_unpack_iff .binary32 x.toBits.toBitVec

theorem isFinite_double_iff {x : Float} :
    x.isFinite = true ↔ x.toBits.toNat / 2 ^ 52 % 2 ^ 11 ≠ 2047 := by
  have hfield : @unpackExponent .binary64 x.toBits.toBitVec = -1#11 ↔
      x.toBits.toNat / 2 ^ 52 % 2 ^ 11 = 2047 := by
    rw [← BitVec.toNat_inj, toNat_unpackExponent .binary64]
    rfl
  rw [ne_eq, ← hfield]
  exact isFinite_unpack_iff .binary64 x.toBits.toBitVec

theorem Binary.exists_decode_eq_finite_iff (f : BinaryFormat) (word : Nat) :
    (∃ negative mantissa exponent, decode f word = .finite negative mantissa exponent) ↔
      word / Nat.pow 2 f.fractionWidth % Nat.pow 2 f.exponentWidth ≠
        Nat.pow 2 f.exponentWidth - 1 := by
  unfold decode
  dsimp only
  split_ifs with hones
  · exact iff_of_false nofun (not_not_intro hones)
  · exact iff_of_false nofun (not_not_intro hones)
  · exact iff_of_true ⟨_, _, _, rfl⟩ hones
  · exact iff_of_true ⟨_, _, _, rfl⟩ hones

/-- The finite singles are those that are read as finite numbers. -/
theorem isFinite_single_iff_ofSingle {x : Float32} :
    x.isFinite = true ↔ ∃ negative mantissa exponent,
      Binary.ofSingle x = .finite negative mantissa exponent :=
  isFinite_single_iff.trans (Binary.exists_decode_eq_finite_iff .single _).symm

theorem isFinite_double_iff_ofFloat {x : Float} :
    x.isFinite = true ↔ ∃ negative mantissa exponent,
      Binary.ofFloat x = .finite negative mantissa exponent :=
  isFinite_double_iff.trans (Binary.exists_decode_eq_finite_iff .double _).symm

/-- A finite edge is not infinite when it is widened. -/
theorem value_widen_ne_bot {x : Float32} (hx : x.isFinite = true) : value (widen x) ≠ ⊥ := by
  obtain ⟨negative, mantissa, exponent, hfinite⟩ := isFinite_single_iff_ofSingle.mp hx
  have hsingle : (Binary.ofSingle x).IsSingle := Binary.isSingle_decode _
  rw [hfinite] at hsingle
  rw [widen, hfinite]
  cases hsingle with
  | finite _ hmantissa hlow hhigh =>
      have hle := Binary.le_value_toFloat negative hmantissa hlow hhigh
      exact ((EReal.bot_lt_coe _).trans_le hle).ne'

/-! ## Frame sizes -/

/-- A number of pixels has 32 bits, so it is within the range of all of them. -/
theorem isWithin_toFloat (pixels : UInt32) : IsWithin 4294967296 pixels.toFloat := by
  have hcomputes := computes_normalize (pixels.toNat : ℤ) 0
  have hnumber : IsNumber pixels.toFloat :=
    (isNumber_iff_of_computes hcomputes rfl).mpr (isNaN_normalize _ _)
  have hvalue : value pixels.toFloat =
      rounded ((((pixels.toNat : ℤ) : ℝ) * 2 ^ (0 : ℤ) : ℝ) : EReal) :=
    value_of_computes hcomputes rfl hnumber
  refine ⟨?_, ?_, by decide +kernel⟩
  · rw [nonneg_iff_value, hvalue]
    refine ⟨hnumber, rounded_nonneg (EReal.coe_nonneg.mpr ?_)⟩
    positivity
  · have hhigh : Float.ofBits 0x41F0000000000000 ≤ 4294967296 := by decide +kernel
    have hgreatest : value (Float.ofBits 0x41F0000000000000) =
        ((signFactor .positive * 2 ^ (52 + -20 : ℤ) : ℝ) : EReal) := value_ofBits_of_unpack rfl
    have hround : rounded (value (Float.ofBits 0x41F0000000000000)) =
        value (Float.ofBits 0x41F0000000000000) := rounded_value _
    refine float_le_trans (le_iff_value.mpr ⟨hnumber, .left_of_le hhigh, ?_⟩) hhigh
    rw [hvalue, ← hround, hgreatest, signFactor]
    refine rounded_mono (EReal.coe_le_coe_iff.mpr ?_)
    have hle : pixels.toNat ≤ 2 ^ 32 := (UInt32.toNat_lt _).le
    have hexponent : (52 + -20 : ℤ) = (32 : ℕ) := rfl
    rw [zpow_zero, mul_one, one_mul, hexponent, zpow_natCast]
    exact_mod_cast hle

theorem isWithin_heightPx (size : FrameSize) : IsWithin 4294967296 size.heightPx :=
  isWithin_toFloat size.height.toUInt32

theorem isWithin_widthPx (size : FrameSize) : IsWithin 4294967296 size.widthPx :=
  isWithin_toFloat size.width.toUInt32

end ObstacleWatch
