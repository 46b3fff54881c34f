/-!
# JSON values

A JSON text is read into a `Json.Value` and written from one.  Numbers keep their digits, so that
each reader of a number can apply its own rule of precision and range.  A string whose escapes leave
a surrogate without its partner spells no text and is kept as `none`: such a string is allowed where
nobody looks at it and refused where its text is wanted.
-/

namespace ObstacleWatch.Json

/-- A number as it is spelled.  An empty `part` stands for no fraction; the flag of an exponent says
whether it is negative. -/
structure Number where
  negative : Bool
  whole : List Char
  part : List Char
  exponent : Option (Bool × List Char)
  deriving Repr, DecidableEq

/-- A JSON value; the members of an object stay in their order, repeated names included. -/
inductive Value where
  | null
  | bool (value : Bool)
  | number (value : Number)
  | text (value : Option String)
  | array (items : List Value)
  | object (members : List (Option String × Value))
  deriving Repr

namespace Value

def str (s : String) : Value :=
  .text (some s)

def record (fields : List (String × Value)) : Value :=
  .object (fields.map fun (name, value) => (some name, value))

end Value

end ObstacleWatch.Json
