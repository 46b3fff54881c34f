import Mathlib

/-!
# What doubles stand for

A double has 53 significant bits, and its last place is worth at least `2 ^ -1074`.  The nearest one
to a real number is a whole number of last places, a half going to the even neighbour; what is too
large becomes infinite.  An unpacked number is a sign, a mantissa and an exponent, and its value is
an extended real.  While a result is computed, an accuracy beside the mantissa tells where in its
last place the exact value lies.
-/

namespace ObstacleWatch

open Float.Model (UnpackedFloat)
open Float.Model.UnpackedFloat

noncomputable section

/-! ## Rounding -/

/-- The nearest integer, and of two equally near ones the even one. -/
def nearestInt (x : ℝ) : ℤ :=
  if Int.fract x < 1 / 2 then ⌊x⌋
  else if 1 / 2 < Int.fract x then ⌊x⌋ + 1
  else if Even ⌊x⌋ then ⌊x⌋
  else ⌊x⌋ + 1

/-- The exponent of the last place that numbers of the size of `x` have. -/
def unitExponent (x : ℝ) : ℤ :=
  max (Int.log 2 |x| - 52) (-1074)

def nearestDouble (x : ℝ) : ℝ :=
  nearestInt (x / 2 ^ unitExponent x) * 2 ^ unitExponent x

/-- The first power of two that no double reaches. -/
def overflowBound : ℝ := 2 ^ (1024 : ℤ)

/-- The largest relative error of a rounding. -/
def unitRoundoff : ℝ := 2 ^ (-53 : ℤ)

/-- The least positive double. -/
def leastDouble : ℝ := 2 ^ (-1074 : ℤ)

/-- Half the last place of the smallest doubles. -/
def underflowError : ℝ := 2 ^ (-1075 : ℤ)

def overflow (x : ℝ) : EReal :=
  if overflowBound ≤ x then ⊤ else if x ≤ -overflowBound then ⊥ else (x : EReal)

def rounded : EReal → EReal
  | ⊥ => ⊥
  | ⊤ => ⊤
  | (x : ℝ) => overflow (nearestDouble x)

/-! ## Unpacked numbers -/

def signFactor : Sign → ℝ
  | .negative => -1
  | .positive => 1

/-- The value of an unpacked number; what is not a number is given the value zero. -/
def unpackedValue : UnpackedFloat → EReal
  | .infinity .negative => ⊥
  | .infinity .positive => ⊤
  | .notANumber => 0
  | .zero _ => 0
  | .finite s m e _ => ((signFactor s * (m * 2 ^ e) : ℝ) : EReal)

/-- The mantissa fills 53 bits, or the exponent is the smallest one. -/
structure CanonicalFields (m : ℕ) (e : ℤ) : Prop where
  mantissa_lt : m < 2 ^ 53
  exponent_ge : -1074 ≤ e
  normal : 2 ^ 52 ≤ m ∨ e = -1074

/-- The unpacked number has a sign and a magnitude. -/
def HasMagnitude (s : Sign) (y : ℝ) : UnpackedFloat → Prop
  | .zero s' => s' = s ∧ y = 0
  | .finite s' m e _ => s' = s ∧ CanonicalFields m e ∧ y = m * 2 ^ e
  | _ => False

/-! ## Accuracies -/

/-- An accuracy describes the part of a last place by which the exact value is larger. -/
def Describes : Accuracy → ℝ → Prop
  | .exact, f => f = 0
  | .inexact .lt, f => 0 < f ∧ f < 1 / 2
  | .inexact .eq, f => f = 1 / 2
  | .inexact .gt, f => 1 / 2 < f ∧ f < 1

end

end ObstacleWatch
