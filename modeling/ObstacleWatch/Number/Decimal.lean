import ObstacleWatch.Number.Binary

/-!
# Decimal digits of binary numbers

A decimal is a coefficient times a power of ten.  Three questions are answered exactly, in natural
numbers:

* `Decimal.shortest`: the fewest digits that still read back as the same binary number, and of
  those the ones nearest to it;
* `Decimal.scaled`: the exact value rounded to a fixed number of places;
* `Decimal.toFloat`: the double nearest to a decimal.
-/

namespace ObstacleWatch

def digitValue (c : Char) : Nat :=
  c.toNat - 48

def digitsValue (ds : List Char) : Nat :=
  ds.foldl (fun n c => 10 * n + digitValue c) 0

structure Decimal where
  coefficient : Nat
  exponent : Int
  deriving Repr, DecidableEq

namespace Decimal

/-- The digits of a natural number, most significant first. -/
def digits (n : Nat) : List Char :=
  Nat.toDigits 10 n

/-- Moves trailing zeros of the coefficient into the exponent; the count bounds the zeros. -/
def stripZeros : Nat → Decimal → Decimal
  | 0, d => d
  | n + 1, d =>
      if d.coefficient ≠ 0 ∧ d.coefficient % 10 = 0 then
        stripZeros n ⟨d.coefficient / 10, d.exponent + 1⟩
      else d

/-- The fraction `numerator / denominator` for `mantissa * 2 ^ binary * 10 ^ decimal`. -/
def fraction (mantissa : Nat) (binary decimal : Int) : Nat × Nat :=
  (mantissa * Nat.pow 2 binary.toNat * Nat.pow 10 decimal.toNat,
    Nat.pow 2 (-binary).toNat * Nat.pow 10 (-decimal).toNat)

/-- The least `n` below a bound with `denominator ≤ numerator * 10 ^ n`. -/
def leadingPlace (numerator denominator : Nat) : Nat → Nat → Nat
  | 0, n => n
  | fuel + 1, n =>
      if denominator ≤ numerator * Nat.pow 10 n then n
      else leadingPlace numerator denominator fuel (n + 1)

/-- The power of ten of the leading digit of `mantissa * 2 ^ exponent`, for a positive mantissa. -/
def leadingExponent (mantissa : Nat) (exponent : Int) : Int :=
  let (numerator, denominator) := fraction mantissa exponent 0
  if denominator ≤ numerator then
    ((digits (numerator / denominator)).length : Int) - 1
  else
    -(leadingPlace numerator denominator (exponent.natAbs + 1) 1 : Int)

/-- The numbers that round to a given binary number, with every bound in units of
`2 ^ (exponent - 2)`: the number itself is `4 * mantissa` of them.  The lower gap is half as wide
below a power of two, and the ends belong to the interval when the mantissa is even. -/
structure Interval where
  low : Nat
  value : Nat
  high : Nat
  closed : Bool
  unit : Int

/-- The rounding interval of `mantissa * 2 ^ exponent` in a format. -/
def interval (f : BinaryFormat) (mantissa : Nat) (exponent : Int) : Interval :=
  let narrowGap := mantissa = Nat.pow 2 f.fractionWidth ∧ f.leastExponent < exponent
  { low := 4 * mantissa - (if narrowGap then 1 else 2)
    value := 4 * mantissa
    high := 4 * mantissa + 2
    closed := mantissa % 2 = 0
    unit := exponent - 2 }

/-- The multiple of `10 ^ place` in the interval that is nearest to its number, if there is one.
Only the two neighbours of the number on that grid can be nearest; of two equally near ones the
even multiple is taken. -/
def Interval.onGrid (i : Interval) (place : Int) : Option Decimal :=
  let (low, denominator) := fraction i.low i.unit (-place)
  let (value, _) := fraction i.value i.unit (-place)
  let (high, _) := fraction i.high i.unit (-place)
  let below := value / denominator
  let above := below + 1
  let belowFits :=
    if i.closed then decide (low ≤ below * denominator) else decide (low < below * denominator)
  let aboveFits :=
    if i.closed then decide (above * denominator ≤ high) else decide (above * denominator < high)
  match belowFits, aboveFits with
  | false, false => none
  | true, false => some ⟨below, place⟩
  | false, true => some ⟨above, place⟩
  | true, true => some ⟨Binary.roundHalfEven value denominator, place⟩

/-- The fewest digits that read back as `mantissa * 2 ^ exponent`; seventeen always do. -/
def shortest (f : BinaryFormat) (mantissa : Nat) (exponent : Int) : Decimal :=
  if mantissa = 0 then ⟨0, 0⟩
  else
    let i := interval f mantissa exponent
    let lead := leadingExponent mantissa exponent
    let found := (List.range 17).findSome? fun (n : Nat) => i.onGrid (lead - n)
    stripZeros 400 (found.getD ⟨0, 0⟩)

/-- The number `mantissa * 2 ^ exponent` in units of `10 ^ -places`, a half to the even unit. -/
def scaled (mantissa : Nat) (exponent : Int) (places : Nat) : Nat :=
  let (numerator, denominator) := fraction mantissa exponent places
  Binary.roundHalfEven numerator denominator

/-- The double nearest to a decimal, with a sign.  Numbers past the ends of the format are cut off
before any power of ten is formed. -/
def toFloat (negative : Bool) (d : Decimal) : Float :=
  let magnitude : Float :=
    if d.coefficient = 0 then 0
    else
      let lead := d.exponent + (digits d.coefficient).length
      if 400 < lead then 1 / 0
      else if lead < -400 then 0
      else Float.ofScientific d.coefficient (decide (d.exponent < 0)) d.exponent.natAbs
  if negative then -magnitude else magnitude

end Decimal

end ObstacleWatch
