import Mathlib.Data.List.Basic

/-!
# Runs of a machine

A machine takes inputs one after the other; the outcome of each step holds the state that the next
step starts from.  The outcome at a place of a run is the step that the state after the earlier
inputs takes.
-/

namespace ObstacleWatch

section StepRun

variable {σ ι ο : Type} (step : σ → ι → ο) (next : ο → σ)

/-- The outcomes of a machine on a list of inputs. -/
def runSteps : σ → List ι → List ο
  | _, [] => []
  | s, i :: is => step s i :: runSteps (next (step s i)) is

/-- The state that a list of inputs leaves. -/
def stateAfter (s : σ) (inputs : List ι) : σ :=
  inputs.foldl (fun s i => next (step s i)) s

@[simp] theorem stateAfter_concat (s : σ) (inputs : List ι) (i : ι) :
    stateAfter step next s (inputs ++ [i]) = next (step (stateAfter step next s inputs) i) := by
  simp [stateAfter]

@[simp] theorem runSteps_nil (s : σ) : runSteps step next s [] = [] := rfl

theorem runSteps_cons (s : σ) (i : ι) (is : List ι) :
    runSteps step next s (i :: is) = step s i :: runSteps step next (next (step s i)) is := rfl

@[simp] theorem runSteps_concat (s : σ) (inputs : List ι) (i : ι) :
    runSteps step next s (inputs ++ [i]) =
      runSteps step next s inputs ++ [step (stateAfter step next s inputs) i] := by
  induction inputs generalizing s with
  | nil => rfl
  | cons first rest ih =>
      rw [List.cons_append, runSteps_cons, ih, runSteps_cons, List.cons_append]
      rfl

@[simp] theorem length_runSteps (s : σ) (inputs : List ι) :
    (runSteps step next s inputs).length = inputs.length := by
  induction inputs generalizing s with
  | nil => rfl
  | cons first rest ih => rw [runSteps_cons, List.length_cons, ih, List.length_cons]

theorem getElem?_runSteps (s : σ) (inputs : List ι) (n : Nat) :
    (runSteps step next s inputs)[n]? =
      inputs[n]?.map (step (stateAfter step next s (inputs.take n))) := by
  induction inputs generalizing s n with
  | nil => rfl
  | cons first rest ih =>
      cases n with
      | zero => rfl
      | succ n =>
          rw [runSteps_cons, List.getElem?_cons_succ, ih, List.getElem?_cons_succ]
          rfl

theorem take_runSteps (s : σ) (inputs : List ι) (n : Nat) :
    (runSteps step next s inputs).take n = runSteps step next s (inputs.take n) := by
  induction inputs generalizing s n with
  | nil => simp
  | cons first rest ih =>
      cases n with
      | zero => rfl
      | succ n => rw [runSteps_cons, List.take_succ_cons, ih, List.take_succ_cons, runSteps_cons]

end StepRun

end ObstacleWatch
