import ObstacleWatch.Text.Unprintable

/-!
# Quoted text

Names are quoted in diagnostics so that every character can be told from every other: the quote, the
backslash and the usual control characters have escapes of their own, and whatever does not stand by
itself is shown by its number in braces.
-/

namespace ObstacleWatch

def isUnprintable (c : Char) : Bool :=
  if c.toNat < 127 then decide (c.toNat < 32)
  else Unprintable.ranges.any fun (low, high) => decide (low ≤ c.toNat) && decide (c.toNat ≤ high)

def quoteChar (c : Char) : List Char :=
  if c = '\x22' then ['\\', '\x22']
  else if c = '\\' then ['\\', '\\']
  else if c = '\x00' then ['\\', '0']
  else if c = '\t' then ['\\', 't']
  else if c = '\r' then ['\\', 'r']
  else if c = '\n' then ['\\', 'n']
  else if isUnprintable c then
    '\\' :: 'u' :: '\x7b' :: (Nat.toDigits 16 c.toNat ++ ['\x7d'])
  else [c]

def quoted (s : String) : String :=
  String.ofList ('\x22' :: (s.toList.flatMap quoteChar ++ ['\x22']))

end ObstacleWatch
