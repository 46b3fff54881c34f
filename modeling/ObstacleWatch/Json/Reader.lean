import ObstacleWatch.Json.Value

/-!
# Reading JSON

The strict grammar: no comments, no trailing commas, no leading zeros, no bare control characters in
strings, and nothing but white space around the one value.
-/

namespace ObstacleWatch.Json

def isSpace (c : Char) : Bool :=
  c = ' ' || c = '\t' || c = '\n' || c = '\r'

def skipSpace (cs : List Char) : List Char :=
  cs.dropWhile isSpace

def hexValue? (c : Char) : Option Nat :=
  if '0' ≤ c ∧ c ≤ '9' then some (c.toNat - 48)
  else if 'a' ≤ c ∧ c ≤ 'f' then some (c.toNat - 87)
  else if 'A' ≤ c ∧ c ≤ 'F' then some (c.toNat - 55)
  else none

def hexUnit? (a b c d : Char) : Option Nat := do
  let a ← hexValue? a
  let b ← hexValue? b
  let c ← hexValue? c
  let d ← hexValue? d
  some (((a * 16 + b) * 16 + c) * 16 + d)

def shortEscape? (c : Char) : Option Char :=
  if c = '\x22' then some '\x22'
  else if c = '\\' then some '\\'
  else if c = '/' then some '/'
  else if c = 'b' then some '\x08'
  else if c = 'f' then some '\x0c'
  else if c = 'n' then some '\n'
  else if c = 'r' then some '\r'
  else if c = 't' then some '\t'
  else none

/-- A piece of a string: a character, or a 16-bit unit given by its number. -/
inductive Piece where
  | char (c : Char)
  | unit (n : Nat)

/-- The pieces of a string behind its opening quote, and the rest behind the closing one. -/
def pieces : List Char → Option (List Piece × List Char)
  | [] => none
  | '\x22' :: rest => some ([], rest)
  | '\\' :: 'u' :: a :: b :: c :: d :: rest => do
      let n ← hexUnit? a b c d
      let (ps, rest) ← pieces rest
      some (.unit n :: ps, rest)
  | '\\' :: c :: rest => do
      let e ← shortEscape? c
      let (ps, rest) ← pieces rest
      some (.char e :: ps, rest)
  | c :: rest =>
      if c.toNat < 32 then none
      else do
        let (ps, rest) ← pieces rest
        some (.char c :: ps, rest)

def isHighUnit (n : Nat) : Bool :=
  decide (0xd800 ≤ n) && decide (n ≤ 0xdbff)

def isLowUnit (n : Nat) : Bool :=
  decide (0xdc00 ≤ n) && decide (n ≤ 0xdfff)

/-- The characters that pieces spell; there are none if a surrogate has no partner right behind. -/
def spell? : List Piece → Option (List Char)
  | [] => some []
  | .char c :: ps => (spell? ps).map (c :: ·)
  | .unit high :: .unit low :: ps =>
      if isHighUnit high then
        if isLowUnit low then
          (spell? ps).map (Char.ofNat (0x10000 + (high - 0xd800) * 0x400 + (low - 0xdc00)) :: ·)
        else none
      else if isLowUnit high then none
      else (spell? (.unit low :: ps)).map (Char.ofNat high :: ·)
  | .unit n :: ps =>
      if isHighUnit n || isLowUnit n then none
      else (spell? ps).map (Char.ofNat n :: ·)

def readText (cs : List Char) : Option (Option String × List Char) := do
  let (ps, rest) ← pieces cs
  some ((spell? ps).map String.ofList, rest)

/-- The longest run of digits in front, which may not be empty. -/
def readDigits (cs : List Char) : Option (List Char × List Char) :=
  match cs.takeWhile Char.isDigit with
  | [] => none
  | ds => some (ds, cs.dropWhile Char.isDigit)

/-- The fraction of a number, if there is one. -/
def readPart : List Char → Option (List Char × List Char)
  | '.' :: cs => readDigits cs
  | cs => some ([], cs)

/-- The sign of an exponent, if it has one. -/
def readExponentSign : List Char → Bool × List Char
  | '-' :: cs => (true, cs)
  | '+' :: cs => (false, cs)
  | cs => (false, cs)

/-- The exponent of a number, if there is one. -/
def readExponent : List Char → Option (Option (Bool × List Char) × List Char)
  | c :: cs =>
      if c = 'e' ∨ c = 'E' then do
        let (negative, cs) := readExponentSign cs
        let (ds, rest) ← readDigits cs
        some (some (negative, ds), rest)
      else some (none, c :: cs)
  | [] => some (none, [])

def readUnsigned (negative : Bool) (cs : List Char) : Option (Number × List Char) := do
  let (whole, cs) ← readDigits cs
  if whole.head? = some '0' ∧ 1 < whole.length then none
  let (part, cs) ← readPart cs
  let (exponent, cs) ← readExponent cs
  some (⟨negative, whole, part, exponent⟩, cs)

def readNumber : List Char → Option (Number × List Char)
  | '-' :: cs => readUnsigned true cs
  | cs => readUnsigned false cs

mutual

/-- A value and the rest behind it; the count bounds the depth of the recursion. -/
def readValue : Nat → List Char → Option (Value × List Char)
  | 0, _ => none
  | fuel + 1, cs =>
      match skipSpace cs with
      | [] => none
      | '\x22' :: rest => do
          let (t, rest) ← readText rest
          some (.text t, rest)
      | '[' :: rest =>
          match skipSpace rest with
          | ']' :: rest => some (.array [], rest)
          | rest => do
              let (items, rest) ← readItems fuel rest
              some (.array items, rest)
      | '\x7b' :: rest =>
          match skipSpace rest with
          | '\x7d' :: rest => some (.object [], rest)
          | rest => do
              let (members, rest) ← readMembers fuel rest
              some (.object members, rest)
      | 'n' :: 'u' :: 'l' :: 'l' :: rest => some (.null, rest)
      | 't' :: 'r' :: 'u' :: 'e' :: rest => some (.bool true, rest)
      | 'f' :: 'a' :: 'l' :: 's' :: 'e' :: rest => some (.bool false, rest)
      | rest => do
          let (n, rest) ← readNumber rest
          some (.number n, rest)

/-- The items of an array up to its bracket. -/
def readItems : Nat → List Char → Option (List Value × List Char)
  | 0, _ => none
  | fuel + 1, cs => do
      let (v, rest) ← readValue fuel cs
      match skipSpace rest with
      | ']' :: rest => some ([v], rest)
      | ',' :: rest => do
          let (vs, rest) ← readItems fuel rest
          some (v :: vs, rest)
      | _ => none

/-- The members of an object up to its brace. -/
def readMembers : Nat → List Char → Option (List (Option String × Value) × List Char)
  | 0, _ => none
  | fuel + 1, cs =>
      match skipSpace cs with
      | '\x22' :: rest => do
          let (name, rest) ← readText rest
          match skipSpace rest with
          | ':' :: rest => do
              let (v, rest) ← readValue fuel rest
              match skipSpace rest with
              | '\x7d' :: rest => some ([(name, v)], rest)
              | ',' :: rest => do
                  let (ms, rest) ← readMembers fuel rest
                  some ((name, v) :: ms, rest)
              | _ => none
          | _ => none
      | _ => none

end

namespace Value

/-- The value that a whole text spells.  Every level of nesting costs a character, so the length of
the text bounds the recursion. -/
def parse? (cs : List Char) : Option Value :=
  match readValue (2 * cs.length + 2) cs with
  | some (v, rest) => if skipSpace rest = [] then some v else none
  | none => none

def ofString? (s : String) : Option Value :=
  parse? s.toList

end Value

end ObstacleWatch.Json
