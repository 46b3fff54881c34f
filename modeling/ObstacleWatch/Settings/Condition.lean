/-!
# Conditions on settings

The ranges that settings are held to, and the step of a check that stops at the first one that is
left.  The numbers are floating-point values, so each range also says what becomes of the ones that
are not numbers: no range holds them.
-/

namespace ObstacleWatch

/-- A share that is neither nothing nor more than everything. -/
def IsShare (x : Float) : Prop :=
  0 < x ∧ x ≤ 1

instance (x : Float) : Decidable (IsShare x) :=
  inferInstanceAs (Decidable (_ ∧ _))

def IsAmount (x : Float) : Prop :=
  x.isFinite = true ∧ 0 ≤ x

instance (x : Float) : Decidable (IsAmount x) :=
  inferInstanceAs (Decidable (_ ∧ _))

def IsDuration (x : Float) : Prop :=
  x.isFinite = true ∧ 0 < x

instance (x : Float) : Decidable (IsDuration x) :=
  inferInstanceAs (Decidable (_ ∧ _))

/-- Passes if a condition holds and names the error otherwise. -/
def require {ε : Type} (condition : Prop) [Decidable condition] (error : ε) : Except ε Unit :=
  if condition then .ok () else .error error

end ObstacleWatch
