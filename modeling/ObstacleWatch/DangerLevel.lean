import ObstacleWatch.Json.Record

/-!
# Danger levels

The three levels an object or a frame can have, from harmless to alarming, with their names and
their place on the scale from zero to one.
-/

namespace ObstacleWatch

inductive DangerLevel where
  | safe
  | caution
  | warn
  deriving Repr, DecidableEq, Inhabited

namespace DangerLevel

/-- The rank of a level, counted from the harmless one. -/
def rank : DangerLevel → Nat
  | safe => 0
  | caution => 1
  | warn => 2

instance : LT DangerLevel := ⟨fun a b => a.rank < b.rank⟩

instance : LE DangerLevel := ⟨fun a b => a.rank ≤ b.rank⟩

instance (a b : DangerLevel) : Decidable (a < b) :=
  inferInstanceAs (Decidable (a.rank < b.rank))

instance (a b : DangerLevel) : Decidable (a ≤ b) :=
  inferInstanceAs (Decidable (a.rank ≤ b.rank))

def name : DangerLevel → String
  | safe => "SAFE"
  | caution => "CAUTION"
  | warn => "WARN"

def all : List DangerLevel :=
  [safe, caution, warn]

def ofName? (s : String) : Option DangerLevel :=
  all.find? fun level => level.name == s

def rankFloat : DangerLevel → Float
  | safe => 0
  | caution => 1
  | warn => 2

/-- The place of a level between zero and one. -/
def danger (level : DangerLevel) : Float :=
  level.rankFloat / 2

/-- A level in JSON is its name, or an object whose only member has that name and no value. -/
def ofJson? : Json.Value → Option DangerLevel
  | .text (some s) => ofName? s
  | .object [(some s, .null)] => ofName? s
  | _ => none

def toJson (level : DangerLevel) : Json.Value :=
  .str level.name

end DangerLevel

end ObstacleWatch
