/-!
# Characters as octets

UTF-8 writes a character as one to four octets: a leading octet that tells how many follow, and
following octets of six bits each.  Reading accepts only the shortest form of a character, and no
surrogates.
-/

namespace ObstacleWatch.Utf8

def octet (n : Nat) : UInt8 :=
  n.toUInt8

/-- A following octet with the last six bits of a number. -/
def following (n : Nat) : UInt8 :=
  octet (0x80 + n % 0x40)

def encodeChar (c : Char) : List UInt8 :=
  let n := c.toNat
  if n < 0x80 then [octet n]
  else if n < 0x800 then [octet (0xc0 + n / 0x40), following n]
  else if n < 0x10000 then [octet (0xe0 + n / 0x1000), following (n / 0x40), following n]
  else [octet (0xf0 + n / 0x40000), following (n / 0x1000), following (n / 0x40), following n]

def encode (cs : List Char) : List UInt8 :=
  cs.flatMap encodeChar

def bits? (b : UInt8) : Option Nat :=
  if b.toNat / 0x40 = 2 then some (b.toNat % 0x40) else none

/-- The character of a number that needs as many octets as were read: it must not be less than the
least such number. -/
def char? (least n : Nat) : Option Char :=
  if least ≤ n ∧ n.isValidChar then some (Char.ofNat n) else none

def char2? (a b : UInt8) : Option Char := do
  if a.toNat / 0x20 ≠ 6 then none
  char? 0x80 (a.toNat % 0x20 * 0x40 + (← bits? b))

def char3? (a b c : UInt8) : Option Char := do
  if a.toNat / 0x10 ≠ 14 then none
  char? 0x800 ((a.toNat % 0x10 * 0x40 + (← bits? b)) * 0x40 + (← bits? c))

def char4? (a b c d : UInt8) : Option Char := do
  if a.toNat / 0x08 ≠ 30 then none
  char? 0x10000
    (((a.toNat % 0x08 * 0x40 + (← bits? b)) * 0x40 + (← bits? c)) * 0x40 + (← bits? d))

def decode? : List UInt8 → Option (List Char)
  | [] => some []
  | a :: rest =>
      if a.toNat < 0x80 then (decode? rest).map (Char.ofNat a.toNat :: ·)
      else
        match rest with
        | [] => none
        | b :: rest =>
            match char2? a b with
            | some char => (decode? rest).map (char :: ·)
            | none =>
                match rest with
                | [] => none
                | c :: rest =>
                    match char3? a b c with
                    | some char => (decode? rest).map (char :: ·)
                    | none =>
                        match rest with
                        | [] => none
                        | d :: rest =>
                            match char4? a b c d with
                            | some char => (decode? rest).map (char :: ·)
                            | none => none

end ObstacleWatch.Utf8
