/-!
# Text that is safe to show

Some control characters are commands to a terminal.  A text from elsewhere is shown with their
numbers in their place, so that it cannot change more than its own line.  Tabs, line breaks and the
other control characters stay as they are.
-/

namespace ObstacleWatch

/-- The control characters of ASCII that a terminal takes for commands: the bell, the backspace, the
form feed, the escape and the delete character. -/
def isTerminalControl (c : Char) : Bool :=
  ['\x07', '\x08', '\x0c', '\x1b', '\x7f'].contains c

def isLateControl (c : Char) : Bool :=
  decide (0x80 ≤ c.toNat) && decide (c.toNat ≤ 0x9f)

/-- The lower-case hexadecimal digits of a number, two at least. -/
def twoHexDigits (n : Nat) : List Char :=
  let digits := Nat.toDigits 16 n
  List.replicate (2 - digits.length) '0' ++ digits

def inertChar (c : Char) : List Char :=
  if isTerminalControl c then '\\' :: 'x' :: twoHexDigits c.toNat
  else if isLateControl c then '\\' :: 'u' :: '\x7b' :: (twoHexDigits c.toNat ++ ['\x7d'])
  else [c]

def inert (s : String) : String :=
  String.ofList (s.toList.flatMap inertChar)

end ObstacleWatch
