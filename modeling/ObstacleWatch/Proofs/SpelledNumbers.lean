import ObstacleWatch.Proofs.JsonRoundTrip
import ObstacleWatch.Proofs.ShortestDigits

/-!
# What written numbers tell

A number of a text has an exact value, whatever its spelling.  The number that a double or a single
is written as rounds to it, and the sign is written too, also the one of zero; so the digits are
those of one double or single.  What is not finite has no digits and is written as a null.
-/

namespace ObstacleWatch

open Json (Number Value)

/-! ## Spellings -/

theorem digitsValue_append (front back : List Char) :
    digitsValue (front ++ back) = digitsValue front * 10 ^ back.length + digitsValue back := by
  change Nat.ofDigitChars 10 (front ++ back) 0 = _
  rw [Nat.ofDigitChars_append, Nat.ofDigitChars_eq_ofDigitChars_zero, mul_comm]
  rfl

theorem digitsValue_zeros (n : ℕ) : digitsValue (List.replicate n '0') = 0 :=
  Nat.ofDigitChars_replicate_zero

namespace Json.Number

/-- The power of ten that stands behind the digits of a number. -/
def power (n : Number) : ℤ :=
  match n.exponent with
  | none => 0
  | some (negative, ds) => if negative then -digitsValue ds else digitsValue ds

/-- The number as a decimal, its sign aside. -/
def decimal (n : Number) : Decimal :=
  ⟨digitsValue (n.whole ++ n.part), n.power - n.part.length⟩

/-- The exact value that a number spells. -/
noncomputable def exactValue (n : Number) : ℝ :=
  signed n.negative n.decimal.value

/-- Zeros behind the digits of a decimal only move its exponent. -/
theorem exactValue_eq {n : Number} {d : Decimal} (zeros : ℕ)
    (hdigits : digitsValue (n.whole ++ n.part) = d.coefficient * 10 ^ zeros)
    (hplace : n.power - n.part.length + zeros = d.exponent) :
    n.exactValue = signed n.negative d.value := by
  rw [exactValue, decimal, hdigits, Decimal.value, Decimal.value, ← hplace,
    zpow_add₀ (by norm_num) _ (zeros : ℤ), zpow_natCast]
  push_cast
  congr 1
  ring

theorem power_scientific (negative : Bool) (whole part : List Char) (lead : ℤ) :
    power ⟨negative, whole, part, some (decide (lead < 0), Decimal.digits lead.natAbs)⟩ = lead := by
  simp only [power, digitsValue_digits, decide_eq_true_eq]
  split_ifs <;> omega

/-- Where the point stands and whether there is an exponent is a matter of spelling only. -/
theorem ofDecimal_spells (layout : Layout) (negative : Bool) (d : Decimal) :
    (ofDecimal layout negative d).negative = negative ∧
      (ofDecimal layout negative d).exactValue = signed negative d.value := by
  by_cases hzero : d.coefficient = 0
  · have hspelled : ofDecimal layout negative d = ⟨negative, ['0'], ['0'], none⟩ := if_pos hzero
    have hdigits : digitsValue (['0'] ++ ['0']) = 0 := rfl
    rw [hspelled]
    refine ⟨rfl, ?_⟩
    rw [exactValue, decimal, Decimal.value, hdigits, Decimal.value, hzero, Nat.cast_zero, zero_mul,
      zero_mul]
  have hvalue := digitsValue_digits d.coefficient
  have hlength : 0 < (Decimal.digits d.coefficient).length := Nat.length_toDigits_pos
  unfold ofDecimal
  rw [if_neg hzero]
  dsimp only
  generalize Decimal.digits d.coefficient = ds at hvalue hlength ⊢
  split_ifs with hpositional hwhole hpoint
  · refine ⟨rfl, exactValue_eq (d.exponent.toNat + 1) ?_ ?_⟩
    · rw [List.append_assoc, ← List.replicate_succ', digitsValue_append, digitsValue_zeros, hvalue,
        List.length_replicate, Nat.add_zero]
    · simp only [power, List.length_singleton]
      omega
  · refine ⟨rfl, exactValue_eq 0 ?_ ?_⟩
    · simp [hvalue]
    · simp only [power, List.splitAt_eq, List.length_drop]
      omega
  · refine ⟨rfl, exactValue_eq 0 ?_ ?_⟩
    · rw [← List.append_assoc, List.singleton_append, ← List.replicate_succ, digitsValue_append,
        digitsValue_zeros, hvalue, Nat.zero_mul, Nat.zero_add, Nat.pow_zero, Nat.mul_one]
    · simp only [power, List.length_append, List.length_replicate]
      omega
  · refine ⟨rfl, exactValue_eq 0 ?_ ?_⟩
    · rw [List.take_append_drop, hvalue, Nat.pow_zero, Nat.mul_one]
    · simp only [power_scientific, List.length_drop]
      omega

theorem exactValue_ofInt (i : ℤ) : (ofInt i).exactValue = i := by
  have hspelled : (ofInt i).exactValue = signed (decide (i < 0)) (Decimal.value ⟨i.natAbs, 0⟩) :=
    exactValue_eq 0 (by simp [ofInt, digitsValue_digits]) (by simp [power, ofInt])
  rw [hspelled, Decimal.value, zpow_zero, mul_one, Nat.cast_natAbs]
  by_cases hneg : i < 0
  · rw [decide_eq_true hneg, signed, if_pos rfl, abs_of_neg hneg]
    push_cast
    exact neg_neg _
  · rw [decide_eq_false hneg, signed, if_neg Bool.false_ne_true, abs_of_nonneg (not_lt.mp hneg)]

end Json.Number

/-! ## Values -/

namespace Json.Value

/-- What a value tells of an integer.  It is spelled as a whole number, and whoever wants an integer
of a range that it fits reads it. -/
structure TellsInt (low high i : ℤ) (v : Value) : Prop where
  spelled : ∃ n, v = .number n ∧ n.part = [] ∧ n.exponent = none ∧ n.exactValue = i
  read : low ≤ i → i ≤ high → v.toIntIn? low high = some i

theorem tellsInt_ofInt {low high : ℤ} (hlow : -2 ^ 63 ≤ low) (hhigh : high < 2 ^ 64) (i : ℤ) :
    TellsInt low high i (ofInt i) where
  spelled := ⟨_, rfl, rfl, rfl, Number.exactValue_ofInt i⟩
  read hi hi' := toIntIn?_ofInt ⟨hi, hi'⟩ hlow hhigh

/-- What a value tells of a number.  Its digits have the sign of the number and round to it; there
are no digits for what is not finite. -/
inductive Tells (nearest : ℝ → ℝ) (finite negative : Bool) (x : ℝ) : Value → Prop
  | null (hfinite : finite = false) : Tells nearest finite negative x .null
  | number {n : Number} (hfinite : finite = true) (hsign : n.negative = negative)
      (hnear : nearest n.exactValue = x) : Tells nearest finite negative x (.number n)

def TellsDouble (x : Float) : Value → Prop :=
  Tells nearestDouble x.isFinite (decide (2 ^ 63 ≤ x.toBits.toNat)) (realValue x)

def TellsSingle (x : Float32) : Value → Prop :=
  Tells (BinaryFormat.nearest .single) x.isFinite (decide (2 ^ 31 ≤ x.toBits.toNat)) (realSingle x)

section Word

variable {f : BinaryFormat} {word word' : ℕ} {finite finite' : Bool} {x x' : ℝ} {v : Value}

/-- The digits of a word tell its number, whatever their layout. -/
theorem tells_ofBinary (layout : Number.Layout) (hwidth : 2 ^ (f.fractionWidth + 1) ≤ 10 ^ 16)
    (hword : f.StandsFor word finite x) :
    Tells f.nearest finite (decide (f.signWeight ≤ word)) x
      (ofBinary f layout (Binary.decode f word)) := by
  have hnull (hother : ¬∃ negative m e, Binary.decode f word = .finite negative m e) :
      finite = false :=
    Bool.eq_false_iff.mpr (hword.finite_iff.not.mpr hother)
  cases hread : Binary.decode f word with
  | finite negative m e =>
      obtain ⟨hsign, hspelled⟩ :=
        Number.ofDecimal_spells layout negative (Decimal.shortest f m e)
      refine .number (hword.finite_iff.mpr ⟨_, _, _, hread⟩) ?_ ?_
      · rw [hsign, Binary.negative_of_decode hread]
      · rw [hspelled, BinaryFormat.nearest_signed, hword.value_eq hread,
          Decimal.nearest_shortest (Binary.holds_of_decode hread) hwidth]
  | nan => exact .null (hnull (by simp [hread]))
  | infinite negative => exact .null (hnull (by simp [hread]))

/-- The digits of a value are those of one word. -/
theorem Tells.word_eq {nearest : ℝ → ℝ} (hfinite : finite = true)
    (hword : f.StandsFor word finite x) (hword' : f.StandsFor word' finite' x')
    (htells : Tells nearest finite (decide (f.signWeight ≤ word)) x v)
    (htells' : Tells nearest finite' (decide (f.signWeight ≤ word')) x' v) : word = word' := by
  cases htells with
  | null hnot => exact absurd (hfinite.symm.trans hnot) nofun
  | number _ hsign hnear =>
      cases htells' with
      | number hfinite' hsign' hnear' =>
          obtain ⟨negative, m, e, hread⟩ := hword.finite_iff.mp hfinite
          obtain ⟨negative', m', e', hread'⟩ := hword'.finite_iff.mp hfinite'
          obtain rfl : negative = negative' := by
            rw [Binary.negative_of_decode hread, Binary.negative_of_decode hread', ← hsign, hsign']
          refine Binary.word_eq_of_value_eq hword.word_lt hword'.word_lt hread hread' ?_
          rw [← hword.value_eq hread, ← hword'.value_eq hread', ← hnear, hnear']

end Word

theorem tellsDouble_ofFloat (x : Float) : TellsDouble x (ofFloat x) := by
  have hnearest : nearestDouble = BinaryFormat.nearest .double :=
    (funext BinaryFormat.nearest_double).symm
  rw [TellsDouble, hnearest]
  exact tells_ofBinary doubleLayout (by decide) (standsFor_double x)

theorem tellsSingle_ofSingle (x : Float32) : TellsSingle x (ofSingle x) :=
  tells_ofBinary singleLayout (by decide) (standsFor_single x)

theorem TellsDouble.eq {x y : Float} {v : Value} (hx : TellsDouble x v)
    (hfinite : x.isFinite = true) (hy : TellsDouble y v) : x = y := by
  have hword := Tells.word_eq hfinite (standsFor_double x) (standsFor_double y) hx hy
  obtain ⟨⟨bits, _⟩⟩ := x
  obtain ⟨⟨bits', _⟩⟩ := y
  obtain rfl : bits = bits' := UInt64.toNat_inj.mp hword
  rfl

theorem TellsSingle.eq {x y : Float32} {v : Value} (hx : TellsSingle x v)
    (hfinite : x.isFinite = true) (hy : TellsSingle y v) : x = y := by
  have hword := Tells.word_eq hfinite (standsFor_single x) (standsFor_single y) hx hy
  obtain ⟨⟨bits, _⟩⟩ := x
  obtain ⟨⟨bits', _⟩⟩ := y
  obtain rfl : bits = bits' := UInt32.toNat_inj.mp hword
  rfl

theorem record_injective : Function.Injective record := by
  intro fields fields' hsame
  refine List.map_injective_iff.mpr ?_ (object.inj hsame)
  rintro ⟨name, v⟩ ⟨name', v'⟩ hmember
  obtain ⟨hname, rfl⟩ := Prod.mk.inj hmember
  rw [Option.some.inj hname]

theorem ofInt_injective : Function.Injective ofInt := by
  intro i j hsame
  have hspelled := congrArg Number.exactValue (number.inj hsame)
  rw [Number.exactValue_ofInt, Number.exactValue_ofInt] at hspelled
  exact_mod_cast hspelled

theorem eq_of_ofFloat_eq {x y : Float} (hfinite : x.isFinite = true)
    (hsame : ofFloat x = ofFloat y) : x = y :=
  (tellsDouble_ofFloat x).eq hfinite (hsame ▸ tellsDouble_ofFloat y)

theorem eq_of_ofSingle_eq {x y : Float32} (hfinite : x.isFinite = true)
    (hsame : ofSingle x = ofSingle y) : x = y :=
  (tellsSingle_ofSingle x).eq hfinite (hsame ▸ tellsSingle_ofSingle y)

end Json.Value

end ObstacleWatch
