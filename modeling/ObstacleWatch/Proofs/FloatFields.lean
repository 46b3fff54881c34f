import ObstacleWatch.Proofs.Rounding

/-!
# Words and unpacked numbers

The logical model of `Float` takes a word apart into a sign, a mantissa and an exponent, and packs
the result of a computation into a word again.  What comes out of a word is canonical, with an
exponent that a word can hold; a canonical number that is packed is the same when it is unpacked,
unless it is too large and becomes infinite.
-/

namespace ObstacleWatch

open Float.Model (Format UnpackedFloat totalExponent)
open Float.Model.UnpackedFloat

/-- A number that a word can hold. -/
def IsStored : UnpackedFloat → Prop
  | .finite _ m e _ => CanonicalFields m e ∧ e ≤ 971
  | _ => True

/-- The number that is left of a canonical one when it is packed. -/
def settle : UnpackedFloat → UnpackedFloat
  | .finite s m e hm => if 972 ≤ e then .infinity s else .finite s m e hm
  | u => u

def IsCanonical : UnpackedFloat → Prop
  | .finite _ m e _ => CanonicalFields m e
  | _ => True

/-! ## Packing -/

theorem unpackSign_packComponents {spec : Format} (s : Sign) (e : BitVec spec.exponentBits)
    (m : BitVec spec.mantissaBitsWithoutImplicit) :
    unpackSign (packComponents spec s e m) = s.toBitVec := by
  ext i hi
  obtain rfl : i = 0 := by omega
  simp [unpackSign, packComponents, BitVec.getLsbD_append, BitVec.getElem_append]

@[simp] theorem ofBitVec_toBitVec (s : Sign) : Sign.ofBitVec s.toBitVec = s := by
  cases s <;> rfl

theorem toNat_hiddenBit {n : ℕ} (m : BitVec n) : (1#1 ++ m).toNat = 2 ^ n + m.toNat := by
  rw [BitVec.toNat_append, ← Nat.shiftLeft_add_eq_or_of_lt m.isLt]
  simp [Nat.shiftLeft_eq]

theorem unpack_packComponents {spec : Format} (s : Sign) (e : BitVec spec.exponentBits)
    (m : BitVec spec.mantissaBitsWithoutImplicit) :
    unpack spec (packComponents spec s e m) =
      if e = -1#_ then if m = 0#_ then .infinity s else .notANumber
      else if e = 0#_ then
        if h : m = 0#_ then .zero s
        else .finite s m.toNat
          ((e.toNat : ℤ) - (spec.exponentBias + spec.mantissaBitsWithoutImplicit) + 1)
          (Nat.pos_of_ne_zero fun hzero => h (BitVec.eq_of_toNat_eq hzero))
      else .finite s (1#1 ++ m).toNat
        ((e.toNat : ℤ) - (spec.exponentBias + spec.mantissaBitsWithoutImplicit))
        (by rw [toNat_hiddenBit]; positivity) := by
  unfold Float.Model.UnpackedFloat.unpack
  simp only [unpackMantissa_packComponents, unpackExponent_packComponents,
    unpackSign_packComponents, ofBitVec_toBitVec]

theorem canonicalFields_normal {e : BitVec 11} (hzero : e ≠ 0#11) (hones : e ≠ -1#11)
    (m : BitVec 52) :
    CanonicalFields (1#1 ++ m).toNat ((e.toNat : ℤ) - 1075) ∧ (e.toNat : ℤ) - 1075 ≤ 971 := by
  have hlt := e.isLt
  have hne_zero : e.toNat ≠ 0 := fun h => hzero (BitVec.eq_of_toNat_eq h)
  have hne_ones : e.toNat ≠ 2047 := fun h => hones (BitVec.eq_of_toNat_eq h)
  have hmantissa : (1#1 ++ m).toNat = 2 ^ 52 + m.toNat := toNat_hiddenBit m
  have hroom := m.isLt
  exact ⟨⟨by omega, by omega, .inl (by omega)⟩, by omega⟩

theorem canonicalFields_subnormal (m : BitVec 52) : CanonicalFields m.toNat (-1074) :=
  ⟨m.isLt.trans (by decide), le_rfl, .inr rfl⟩

theorem isStored_unpack (word : BitVec 64) : IsStored (unpack .binary64 word) := by
  unfold Float.Model.UnpackedFloat.unpack
  simp only
  split_ifs with hones hmantissa hzero hmantissa
  · trivial
  · trivial
  · trivial
  · rw [hzero]
    exact ⟨canonicalFields_subnormal _, by decide⟩
  · exact canonicalFields_normal hzero hones _

theorem log2_add_one_eq_iff {m : ℕ} (hpos : 0 < m) (hlt : m < 2 ^ 53) :
    m.log2 + 1 = 53 ↔ 2 ^ 52 ≤ m := by
  have hlow : 2 ^ 52 ≤ m ↔ 52 ≤ m.log2 := (Nat.le_log2 hpos.ne').symm
  have hhigh : m.log2 < 53 := (Nat.log2_lt hpos.ne').mpr hlt
  omega

theorem pack_finite (s : Sign) {m : ℕ} {e : ℤ} (hm : 0 < m) (hfields : CanonicalFields m e) :
    pack .binary64 (.finite s m e hm) =
      if 972 ≤ e then packedInfinity .binary64 s
      else if 2 ^ 52 ≤ m then
        packComponents .binary64 s (.ofNat 11 (e + 1075).toNat) (.ofNat 52 m)
      else packComponents .binary64 s 0#11 (.ofNat 52 m) := by
  have hge := hfields.exponent_ge
  have hlarge : 2 ^ 11 ≤ (e + 1075).toNat + 1 ↔ 972 ≤ e := by omega
  have hbias : e + 1023 + 52 = e + 1075 := by ring
  change (if 2 ^ 11 ≤ (e + 1023 + 52).toNat + 1 then packedInfinity .binary64 s
    else if m.log2 + 1 = 53 then
      packComponents .binary64 s (.ofNat 11 (e + 1023 + 52).toNat) (.ofNat 52 m)
    else packComponents .binary64 s 0#11 (.ofNat 52 m)) = _
  simp only [hbias, hlarge, log2_add_one_eq_iff hm hfields.mantissa_lt]

theorem unpack_normal (s : Sign) {m : ℕ} {e : ℤ} (hm : 0 < m) (hlow : 2 ^ 52 ≤ m)
    (hhigh : m < 2 ^ 53) (hge : -1074 ≤ e) (hle : e ≤ 971) :
    unpack .binary64 (packComponents .binary64 s (.ofNat 11 (e + 1075).toNat) (.ofNat 52 m)) =
      .finite s m e hm := by
  have hexponent : (BitVec.ofNat 11 (e + 1075).toNat).toNat = (e + 1075).toNat := by
    rw [BitVec.toNat_ofNat, Nat.mod_eq_of_lt (by omega)]
  have hones : BitVec.ofNat 11 (e + 1075).toNat ≠ -1#11 := by
    intro heq
    have hword : (e + 1075).toNat = 2047 := hexponent ▸ congrArg BitVec.toNat heq
    omega
  have hzero : BitVec.ofNat 11 (e + 1075).toNat ≠ 0#11 := by
    intro heq
    have hword : (e + 1075).toNat = 0 := hexponent ▸ congrArg BitVec.toNat heq
    omega
  have hmantissa : (1#1 ++ BitVec.ofNat 52 m).toNat = m := by
    rw [toNat_hiddenBit, BitVec.toNat_ofNat]
    omega
  rw [unpack_packComponents, if_neg hones, if_neg hzero]
  simp only [UnpackedFloat.finite.injEq, true_and, hmantissa]
  change ((BitVec.ofNat 11 (e + 1075).toNat).toNat : ℤ) - 1075 = e
  rw [hexponent]
  omega

theorem unpack_subnormal (s : Sign) {m : ℕ} (hm : 0 < m) (hlt : m < 2 ^ 52) :
    unpack .binary64 (packComponents .binary64 s 0#11 (.ofNat 52 m)) =
      .finite s m (-1074) hm := by
  have hmantissa : (BitVec.ofNat 52 m).toNat = m := by
    rw [BitVec.toNat_ofNat, Nat.mod_eq_of_lt hlt]
  have hne : BitVec.ofNat 52 m ≠ 0#52 := by
    intro heq
    have hword : m = 0 := hmantissa ▸ congrArg BitVec.toNat heq
    omega
  rw [unpack_packComponents, if_neg (by decide), if_pos rfl, dif_neg hne]
  simp only [UnpackedFloat.finite.injEq, true_and, hmantissa]
  rfl

/-- Packing a canonical number and unpacking it again loses it only if it is too large. -/
theorem unpack_pack {u : UnpackedFloat} (hu : IsCanonical u) :
    unpack .binary64 (pack .binary64 u) = settle u := by
  cases u with
  | infinity s => cases s <;> rfl
  | notANumber => rfl
  | zero s => cases s <;> rfl
  | finite s m e hm =>
      obtain ⟨hlt, hge, hnormal⟩ := id hu
      rw [pack_finite s hm hu, settle]
      split_ifs with hlarge hfull
      · cases s <;> rfl
      · exact unpack_normal s hm hfull hlt hge (by omega)
      · obtain rfl : e = -1074 := by omega
        exact unpack_subnormal s hm (by omega)

end ObstacleWatch
