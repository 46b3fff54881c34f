import ObstacleWatch.Fields
import ObstacleWatch.Json.Number

/-!
# Records in JSON

A record with fixed field names may be written as an object, in any order, or as an array in the
order of its names, where fields at the end may be missing.  No field may come twice.  Whether an
object may hold other members is a choice of the record; their values are then left unread, so they
only have to be well-formed.
-/

namespace ObstacleWatch.Json.Value

/-- The values of the named fields, in the order of the names, each with a mark for its absence. -/
def fields? (names : List String) (strict : Bool) : Value → Option (List (Option Value))
  | .array items =>
      if items.length ≤ names.length then
        some (items.map some ++ List.replicate (names.length - items.length) none)
      else none
  | .object members =>
      if members.all fun m =>
          match m.1 with
          | none => false
          | some name => !strict || names.contains name
      then names.mapM fun name => unique? (some name) members
      else none
  | _ => none

def toIntIn? (low high : Int) : Value → Option Int
  | .number n => do
      let i ← n.toInt?
      if low ≤ i ∧ i ≤ high then some i else none
  | _ => none

def toNatUpTo? (high : Nat) (v : Value) : Option Nat :=
  (v.toIntIn? 0 high).map Int.toNat

def toFloat? : Value → Option Float
  | .number n => n.toFloat?
  | _ => none

def toSingle? : Value → Option Float32
  | .number n => n.toSingle?
  | _ => none

def toText? : Value → Option String
  | .text t => t
  | _ => none

/-- The items of an array, each read in the same way. -/
def toListOf? {α : Type} (read : Value → Option α) : Value → Option (List α)
  | .array items => items.mapM read
  | _ => none

end ObstacleWatch.Json.Value
