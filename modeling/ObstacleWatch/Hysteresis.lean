import ObstacleWatch.DangerLevel

/-!
# Hysteresis

A step up is taken at once and arms a hold; a step down has to use up the hold first, one frame at a
time.  A frame that confirms the level leaves the hold as it is.
-/

namespace ObstacleWatch

/-- The stabilised level of a track and the frames for which it is still held. -/
structure HysteresisGate where
  level : DangerLevel
  hold : Nat
  deriving Repr, DecidableEq

inductive GateTransition where
  | escalated
  | holding
  | decayed
  | unchanged
  deriving Repr, DecidableEq

namespace HysteresisGate

def initial : HysteresisGate := ⟨.safe, 0⟩

def step (g : HysteresisGate) (candidate : DangerLevel) (hysteresisFrames : Nat) :
    HysteresisGate × GateTransition :=
  if g.level < candidate then (⟨candidate, hysteresisFrames⟩, .escalated)
  else if candidate < g.level then
    if 0 < g.hold then (⟨g.level, g.hold - 1⟩, .holding) else (⟨candidate, g.hold⟩, .decayed)
  else (g, .unchanged)

end HysteresisGate

end ObstacleWatch
