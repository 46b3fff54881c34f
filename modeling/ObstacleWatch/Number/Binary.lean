/-!
# Binary floating-point numbers, taken apart and put together

A binary floating-point word is a sign, an exponent field and a fraction field.  `Binary.decode`
reads the exact number such a word stands for, and `Binary.encode` finds the word nearest to an
exact number, a half going to the even neighbour.  Both work on natural numbers alone, so every
digit printed or read by this library can be followed without any machine arithmetic.

`widen` and `narrow` carry numbers between the 32-bit and the 64-bit format by decoding in the one
and encoding in the other: widening is exact, narrowing rounds once.
-/

namespace ObstacleWatch

/-- The two field widths that fix a binary format. -/
structure BinaryFormat where
  fractionWidth : Nat
  exponentWidth : Nat

namespace BinaryFormat

def single : BinaryFormat := ⟨23, 8⟩

def double : BinaryFormat := ⟨52, 11⟩

/-- The exponent of the last place of the smallest numbers. -/
def leastExponent (f : BinaryFormat) : Int :=
  2 - Int.pow 2 (f.exponentWidth - 1) - f.fractionWidth

/-- The word of positive infinity; every larger unsigned word is a NaN. -/
def infinityWord (f : BinaryFormat) : Nat :=
  (Nat.pow 2 f.exponentWidth - 1) * Nat.pow 2 f.fractionWidth

def signWeight (f : BinaryFormat) : Nat :=
  Nat.pow 2 (f.fractionWidth + f.exponentWidth)

end BinaryFormat

/-- The number a binary word stands for; a finite one is `± mantissa * 2 ^ exponent`. -/
inductive Binary where
  | nan
  | infinite (negative : Bool)
  | finite (negative : Bool) (mantissa : Nat) (exponent : Int)
  deriving Repr, DecidableEq

namespace Binary

/-- Reads the fields of a word.  The exponent field zero shares the last place of the field one and
has no hidden leading bit. -/
def decode (f : BinaryFormat) (word : Nat) : Binary :=
  let fraction := word % Nat.pow 2 f.fractionWidth
  let field := word / Nat.pow 2 f.fractionWidth % Nat.pow 2 f.exponentWidth
  let negative := decide (f.signWeight ≤ word)
  if field = Nat.pow 2 f.exponentWidth - 1 then
    if fraction = 0 then .infinite negative else .nan
  else if field = 0 then
    .finite negative fraction f.leastExponent
  else
    .finite negative (Nat.pow 2 f.fractionWidth + fraction) (f.leastExponent + (field - 1))

/-- The quotient `n / d` rounded to the nearest natural number, a half to the even one. -/
def roundHalfEven (n d : Nat) : Nat :=
  let q := n / d
  let twice := 2 * (n % d)
  if twice < d then q
  else if d < twice then q + 1
  else if q % 2 = 0 then q
  else q + 1

/-- The word of the non-negative number nearest to `mantissa * 2 ^ exponent`, capped at infinity.

The last place is chosen so that the rounded mantissa fills the fraction and its hidden bit, or is
the format's smallest.  Counting words from that place up is the same as adding the mantissa, and a
mantissa that rounds up to the next power of two lands on the next exponent by itself. -/
def magnitudeWord (f : BinaryFormat) (mantissa : Nat) (exponent : Int) : Nat :=
  if mantissa = 0 then 0
  else
    let place := max (exponent + mantissa.log2 - f.fractionWidth) f.leastExponent
    let rounded :=
      if place ≤ exponent then mantissa * Nat.pow 2 (exponent - place).toNat
      else roundHalfEven mantissa (Nat.pow 2 (place - exponent).toNat)
    min ((place - f.leastExponent).toNat * Nat.pow 2 f.fractionWidth + rounded) f.infinityWord

/-- The word nearest to a number; a NaN is written as the quiet one without a sign. -/
def encode (f : BinaryFormat) : Binary → Nat
  | .nan => f.infinityWord + Nat.pow 2 (f.fractionWidth - 1)
  | .infinite negative => f.infinityWord + (if negative then f.signWeight else 0)
  | .finite negative mantissa exponent =>
      magnitudeWord f mantissa exponent + (if negative then f.signWeight else 0)

def ofFloat (x : Float) : Binary :=
  decode .double x.toBits.toNat

def ofSingle (x : Float32) : Binary :=
  decode .single x.toBits.toNat

def toFloat (b : Binary) : Float :=
  Float.ofBits (encode .double b).toUInt64

def toSingle (b : Binary) : Float32 :=
  Float32.ofBits (encode .single b).toUInt32

end Binary

def widen (x : Float32) : Float :=
  (Binary.ofSingle x).toFloat

/-- The single nearest to a double; too large a number becomes infinite. -/
def narrow (x : Float) : Float32 :=
  (Binary.ofFloat x).toSingle

end ObstacleWatch
