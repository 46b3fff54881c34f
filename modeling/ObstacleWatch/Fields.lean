/-!
# Fields of a record

Records are read from lists of named values.  A name may come once at most, and a field that is
missing takes a usual value.
-/

namespace ObstacleWatch

variable {κ α β : Type}

/-- The value of a name that may come at most once. -/
def unique? [BEq κ] (name : κ) (members : List (κ × β)) : Option (Option β) :=
  match members.filter fun m => m.1 == name with
  | [] => some none
  | [m] => some (some m.2)
  | _ => none

/-- A field with a value to take when it is missing. -/
def fieldOr (usual : α) (read : β → Option α) : Option β → Option α
  | none => some usual
  | some value => read value

end ObstacleWatch
