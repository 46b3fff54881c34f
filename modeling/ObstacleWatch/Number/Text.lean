import ObstacleWatch.Number.Decimal

/-!
# The written forms of numbers

Numbers are shown to people in two ways: `plain` writes the fewest digits that read back, without an
exponent, and `fixed` writes a set number of places.
-/

namespace ObstacleWatch

/-- The words for the numbers that have no digits. -/
def specialText : Binary → Option String
  | .nan => some "NaN"
  | .infinite true => some "-inf"
  | .infinite false => some "inf"
  | .finite _ _ _ => none

/-- The digits of a natural number with zeros in front up to a width. -/
def padDigits (width n : Nat) : List Char :=
  let ds := Decimal.digits n
  List.replicate (width - ds.length) '0' ++ ds

/-- The digits of `n` with a point before the last `places` of them, of which none is left out. -/
def pointed (n places : Nat) : List Char × List Char :=
  let ds := padDigits (places + 1) n
  ds.splitAt (ds.length - places)

namespace Decimal

def positional (d : Decimal) : List Char × List Char :=
  if 0 ≤ d.exponent then (digits d.coefficient ++ List.replicate d.exponent.toNat '0', [])
  else pointed d.coefficient (-d.exponent).toNat

end Decimal

/-- Joins the digits before and after the point, leaving out a point with nothing behind it. -/
def joinPoint : List Char × List Char → String
  | (whole, []) => String.ofList whole
  | (whole, part) => String.ofList (whole ++ '.' :: part)

/-- A minus sign for negative numbers, negative zero among them. -/
def signText (negative : Bool) : String :=
  if negative then "-" else ""

/-- The fewest digits that read back as the double, never with an exponent. -/
def plain (x : Float) : String :=
  match Binary.ofFloat x with
  | .finite negative m e => signText negative ++ joinPoint (Decimal.shortest .double m e).positional
  | b => (specialText b).getD ""

/-- The exact value of a double rounded to a number of places, a half to the even digit. -/
def fixed (places : Nat) (x : Float) : String :=
  match Binary.ofFloat x with
  | .finite negative m e =>
      signText negative ++ joinPoint (pointed (Decimal.scaled m e places) places)
  | b => (specialText b).getD ""

end ObstacleWatch
