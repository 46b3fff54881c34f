import ObstacleWatch.Json.Value
import ObstacleWatch.Number.Decimal

/-!
# The numbers of JSON texts

Reading: a number without fraction and exponent is an integer when it fits 64 bits.  Any other
number is taken as a significand of at most 64 bits, further digits being dropped, that is
multiplied or divided once by a power of ten in double precision.  A number too large for a double
has no value.

Writing: the fewest digits that read back, positional while the leading digit is not too far from
the point and with an exponent otherwise.
-/

namespace ObstacleWatch.Json

def greatestSignificand : Nat := Nat.pow 2 64 - 1

/-- Appends digits to a significand until one does not fit any more; also counts those that did. -/
def appendDigits : Nat → List Char → Nat × Nat
  | kept, [] => (kept, 0)
  | kept, c :: cs =>
      let next := kept * 10 + digitValue c
      if next ≤ greatestSignificand then
        let (final, taken) := appendDigits next cs
        (final, taken + 1)
      else (kept, 0)

def powerOfTen (n : Nat) : Float :=
  Float.ofScientific 1 false n

/-- The largest power of ten that a double holds. -/
def greatestPower : Nat := 308

/-- `significand * 10 ^ exponent` by one rounded multiplication or division; an exponent below the
smallest power is worked off in steps, and the count bounds them.  Infinite results are refused. -/
def scaleByTen : Nat → Float → Int → Option Float
  | steps, f, exponent =>
      if exponent.natAbs ≤ greatestPower then
        if 0 ≤ exponent then
          let scaled := f * powerOfTen exponent.toNat
          if scaled.isInf then none else some scaled
        else some (f / powerOfTen exponent.natAbs)
      else if f == 0 then some f
      else if 0 ≤ exponent then none
      else
        match steps with
        | 0 => some 0
        | steps + 1 => scaleByTen steps (f / powerOfTen greatestPower) (exponent + greatestPower)

namespace Number

/-- The integer that the number spells, if it has neither fraction nor exponent and fits 64 bits
with or without a sign.  Minus zero is not an integer. -/
def toInt? (n : Number) : Option Int :=
  if n.part = [] ∧ n.exponent = none then
    let magnitude := digitsValue n.whole
    if n.negative then
      if 0 < magnitude ∧ magnitude ≤ Nat.pow 2 63 then some (-magnitude) else none
    else if magnitude ≤ greatestSignificand then some magnitude
    else none
  else none

/-- The greatest exponent that is computed with; beyond it only the sign of the exponent counts. -/
def greatestExponent : Nat := Nat.pow 2 31 - 1

/-- The double that a number spells, the sign aside. -/
def magnitude? (n : Number) : Option Float :=
  let (kept, taken) := appendDigits 0 n.whole
  let (significand, places) := appendDigits kept n.part
  let shift : Int := (n.whole.length - taken : Nat) - (places : Int)
  let f := significand.toUInt64.toFloat
  match n.exponent with
  | none => scaleByTen 3 f shift
  | some (negative, ds) =>
      let e := digitsValue ds
      if greatestExponent < e then
        if negative ∨ significand = 0 then some 0 else none
      else scaleByTen 3 f (if negative then shift - e else shift + e)

def toFloat? (n : Number) : Option Float :=
  match n.toInt? with
  | some i => some (Binary.finite (decide (i < 0)) i.natAbs 0).toFloat
  | none => n.magnitude?.map fun f => if n.negative then -f else f

/-- The single that a number spells: an integer is rounded once, any other number on its way
through a double. -/
def toSingle? (n : Number) : Option Float32 :=
  match n.toInt? with
  | some i => some (Binary.finite (decide (i < 0)) i.natAbs 0).toSingle
  | none => n.toFloat?.map narrow

def ofInt (i : Int) : Number :=
  ⟨decide (i < 0), Decimal.digits i.natAbs, [], none⟩

/-- The exponents of the leading digit between which a number is written without an exponent. -/
structure Layout where
  least : Int
  greatest : Int

/-- A decimal in the shortest spelling with the given layout; the positional one always has a digit
behind the point. -/
def ofDecimal (layout : Layout) (negative : Bool) (d : Decimal) : Number :=
  let ds := Decimal.digits d.coefficient
  let lead := d.exponent + ds.length - 1
  if d.coefficient = 0 then ⟨negative, ['0'], ['0'], none⟩
  else if layout.least ≤ lead ∧ lead ≤ layout.greatest then
    if 0 ≤ d.exponent then
      ⟨negative, ds ++ List.replicate d.exponent.toNat '0', ['0'], none⟩
    else if 0 ≤ lead then
      let (whole, part) := ds.splitAt (lead.toNat + 1)
      ⟨negative, whole, part, none⟩
    else ⟨negative, ['0'], List.replicate (-lead - 1).toNat '0' ++ ds, none⟩
  else
    ⟨negative, ds.take 1, ds.drop 1, some (decide (lead < 0), Decimal.digits lead.natAbs)⟩

end Number

/-- Doubles are written without an exponent from a hundred-thousandth up to ten to the sixteenth. -/
def doubleLayout : Number.Layout := ⟨-5, 15⟩

/-- Singles are written without an exponent from a millionth up to ten to the thirteenth. -/
def singleLayout : Number.Layout := ⟨-6, 12⟩

namespace Value

/-- A finite number; JSON has no word for the others, and they are written as null. -/
def ofBinary (f : BinaryFormat) (layout : Number.Layout) : Binary → Value
  | .finite negative m e => .number (.ofDecimal layout negative (Decimal.shortest f m e))
  | _ => .null

def ofFloat (x : Float) : Value :=
  ofBinary .double doubleLayout (.ofFloat x)

def ofSingle (x : Float32) : Value :=
  ofBinary .single singleLayout (.ofSingle x)

def ofInt (i : Int) : Value :=
  .number (.ofInt i)

end Value

end ObstacleWatch.Json
