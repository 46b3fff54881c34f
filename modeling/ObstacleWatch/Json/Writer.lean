import ObstacleWatch.Json.Value

/-!
# Writing JSON

Values are written without any space.  In strings only the quote, the backslash and the control
characters below the space are escaped, so a written value never contains a line break.
-/

namespace ObstacleWatch.Json

def hexDigit (n : Nat) : Char :=
  if n < 10 then Char.ofNat (48 + n) else Char.ofNat (87 + n)

def escapeChar (c : Char) : List Char :=
  if c = '\x22' then ['\\', '\x22']
  else if c = '\\' then ['\\', '\\']
  else if c = '\x08' then ['\\', 'b']
  else if c = '\t' then ['\\', 't']
  else if c = '\n' then ['\\', 'n']
  else if c = '\x0c' then ['\\', 'f']
  else if c = '\r' then ['\\', 'r']
  else if c.toNat < 32 then
    ['\\', 'u', '0', '0', hexDigit (c.toNat / 16), hexDigit (c.toNat % 16)]
  else [c]

/-- A string in quotes; one without a text is written as a lone surrogate. -/
def textChars : Option String → List Char
  | some s => '\x22' :: (s.toList.flatMap escapeChar ++ ['\x22'])
  | none => ['\x22', '\\', 'u', 'd', '8', '0', '0', '\x22']

namespace Number

/-- The spelling of a number; an exponent always shows its sign. -/
def toChars (n : Number) : List Char :=
  (if n.negative then ['-'] else []) ++ n.whole ++
    (if n.part = [] then [] else '.' :: n.part) ++
    (match n.exponent with
      | none => []
      | some (negative, ds) => 'e' :: (if negative then '-' else '+') :: ds)

end Number

namespace Value

mutual

def toChars : Value → List Char
  | .null => ['n', 'u', 'l', 'l']
  | .bool true => ['t', 'r', 'u', 'e']
  | .bool false => ['f', 'a', 'l', 's', 'e']
  | .number n => n.toChars
  | .text t => textChars t
  | .array items => '[' :: (itemsChars items ++ [']'])
  | .object members => '\x7b' :: (membersChars members ++ ['\x7d'])

def itemsChars : List Value → List Char
  | [] => []
  | [v] => v.toChars
  | v :: w :: rest => v.toChars ++ ',' :: itemsChars (w :: rest)

def membersChars : List (Option String × Value) → List Char
  | [] => []
  | [(name, v)] => textChars name ++ ':' :: v.toChars
  | (name, v) :: m :: rest =>
      textChars name ++ ':' :: (v.toChars ++ ',' :: membersChars (m :: rest))

end

/-- The written form of a value as a string. -/
def render (v : Value) : String :=
  String.ofList v.toChars

end Value

end ObstacleWatch.Json
