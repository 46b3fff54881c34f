import Mathlib.Data.List.Induction
import ObstacleWatch.Hysteresis

/-!
# The gate after a history of candidates

A gate never shows less than the candidate it was last given, and the level it shows was itself a
candidate not long ago: the candidates since then and the hold that is left fit together into one
full hold.  After a raise the state of the gate is known exactly from the number of lower
candidates, until the next raise.
-/

namespace ObstacleWatch

namespace DangerLevel

theorem lt_iff_rank_lt {a b : DangerLevel} : a < b ↔ a.rank < b.rank := Iff.rfl

theorem le_iff_rank_le {a b : DangerLevel} : a ≤ b ↔ a.rank ≤ b.rank := Iff.rfl

theorem eq_of_rank_eq {a b : DangerLevel} (hrank : a.rank = b.rank) : a = b := by
  cases a <;> cases b <;> simp_all [rank]

theorem eq_warn_of_le {a : DangerLevel} (hle : warn ≤ a) : a = warn := by
  apply eq_of_rank_eq
  have hrank := le_iff_rank_le.mp hle
  cases a <;> simp_all [rank]

/-- The highest of some levels; safe if there are none. -/
def highest : List DangerLevel → DangerLevel
  | [] => .safe
  | level :: rest => if highest rest < level then level else highest rest

theorem le_highest {level : DangerLevel} {levels : List DangerLevel} (hmem : level ∈ levels) :
    level ≤ highest levels := by
  induction levels with
  | nil => simp at hmem
  | cons first rest ih =>
      have hhead : first ≤ highest (first :: rest) ∧ highest rest ≤ highest (first :: rest) := by
        rw [highest]
        simp only [le_iff_rank_le, lt_iff_rank_lt]
        split <;> omega
      rcases List.mem_cons.mp hmem with rfl | hrest
      · exact hhead.1
      · exact Nat.le_trans (ih hrest) hhead.2

end DangerLevel

namespace HysteresisGate

variable {fullHold : Nat} {g : HysteresisGate} {level last c : DangerLevel}
  {cs : List DangerLevel} {lows : Nat}

/-! ## One candidate -/

theorem step_of_lt (fullHold : Nat) (hraise : g.level < c) :
    g.step c fullHold = (⟨c, fullHold⟩, .escalated) := by
  rw [step, if_pos hraise]

theorem step_of_hold (fullHold : Nat) (hlow : c < g.level) (hhold : 0 < g.hold) :
    g.step c fullHold = (⟨g.level, g.hold - 1⟩, .holding) := by
  have hraise : ¬g.level < c := by
    rw [DangerLevel.lt_iff_rank_lt] at hlow ⊢
    omega
  rw [step, if_neg hraise, if_pos hlow, if_pos hhold]

theorem step_of_no_hold (fullHold : Nat) (hlow : c < g.level) (hhold : g.hold = 0) :
    g.step c fullHold = (⟨c, 0⟩, .decayed) := by
  have hraise : ¬g.level < c := by
    rw [DangerLevel.lt_iff_rank_lt] at hlow ⊢
    omega
  rw [step, if_neg hraise, if_pos hlow, if_neg (by omega), hhold]

theorem step_level (g : HysteresisGate) (fullHold : Nat) :
    g.step g.level fullHold = (g, .unchanged) := by
  have hsame : ¬g.level < g.level := Nat.lt_irrefl _
  rw [step, if_neg hsame, if_neg hsame]

/-- A gate that has seen nothing takes any candidate at once. -/
theorem level_step_initial (c : DangerLevel) (fullHold : Nat) :
    (initial.step c fullHold).1.level = c := by
  cases c <;> rfl

/-- All that a candidate can do to a gate. -/
theorem step_cases (g : HysteresisGate) (c : DangerLevel) (fullHold : Nat) :
    (g.level < c ∧ g.step c fullHold = (⟨c, fullHold⟩, .escalated)) ∨
      (c < g.level ∧ 0 < g.hold ∧
        g.step c fullHold = (⟨g.level, g.hold - 1⟩, .holding)) ∨
      (c < g.level ∧ g.hold = 0 ∧ g.step c fullHold = (⟨c, 0⟩, .decayed)) ∨
      (c = g.level ∧ g.step c fullHold = (g, .unchanged)) := by
  by_cases hraise : g.level < c
  · exact Or.inl ⟨hraise, step_of_lt fullHold hraise⟩
  · by_cases hlow : c < g.level
    · rcases Nat.eq_zero_or_pos g.hold with hhold | hhold
      · exact Or.inr (Or.inr (Or.inl ⟨hlow, hhold, step_of_no_hold fullHold hlow hhold⟩))
      · exact Or.inr (Or.inl ⟨hlow, hhold, step_of_hold fullHold hlow hhold⟩)
    · have hsame : c = g.level := by
        apply DangerLevel.eq_of_rank_eq
        rw [DangerLevel.lt_iff_rank_lt] at hraise hlow
        omega
      subst hsame
      exact Or.inr (Or.inr (Or.inr ⟨rfl, step_level g fullHold⟩))

theorem le_level_step (g : HysteresisGate) (c : DangerLevel) (fullHold : Nat) :
    c ≤ (g.step c fullHold).1.level := by
  rcases step_cases g c fullHold with
    ⟨-, hstep⟩ | ⟨hlow, -, hstep⟩ | ⟨-, -, hstep⟩ | ⟨rfl, hstep⟩
  · rw [hstep]
    exact Nat.le_refl _
  · rw [hstep]
    exact Nat.le_of_lt hlow
  · rw [hstep]
    exact Nat.le_refl _
  · rw [hstep]
    exact Nat.le_refl _

theorem lt_of_step_escalated (hstep : (g.step c fullHold).2 = .escalated) : g.level < c := by
  rcases step_cases g c fullHold with
    ⟨hraise, -⟩ | ⟨-, -, hother⟩ | ⟨-, -, hother⟩ | ⟨-, hother⟩
  · exact hraise
  · simp [hother] at hstep
  · simp [hother] at hstep
  · simp [hother] at hstep

/-! ## A list of candidates -/

def after (fullHold : Nat) (cs : List DangerLevel) : HysteresisGate :=
  cs.foldl (fun g c => (g.step c fullHold).1) .initial

theorem after_concat (fullHold : Nat) (cs : List DangerLevel) (c : DangerLevel) :
    after fullHold (cs ++ [c]) = ((after fullHold cs).step c fullHold).1 := by
  simp [after]

theorem after_append (fullHold : Nat) (cs ds : List DangerLevel) :
    after fullHold (cs ++ ds) =
      ds.foldl (fun g c => (g.step c fullHold).1) (after fullHold cs) := by
  simp [after]

/-- No fewer candidates than the hold that is left can lower the level. -/
theorem level_le_foldl (hfull : g.hold ≤ fullHold) (hshort : cs.length ≤ g.hold) :
    g.level ≤ (cs.foldl (fun g c => (g.step c fullHold).1) g).level := by
  induction cs generalizing g with
  | nil => exact Nat.le_refl _
  | cons c cs ih =>
      rw [List.length_cons] at hshort
      rw [List.foldl_cons]
      rcases step_cases g c fullHold with
        ⟨hraise, hstep⟩ | ⟨-, hhold, hstep⟩ | ⟨-, hhold, -⟩ | ⟨-, hstep⟩
      · rw [hstep]
        have hafter := ih (g := ⟨c, fullHold⟩) (Nat.le_refl _) (by simp only; omega)
        exact Nat.le_trans (Nat.le_of_lt hraise) hafter
      · rw [hstep]
        exact ih (g := ⟨g.level, g.hold - 1⟩) (by simp only; omega) (by simp only; omega)
      · omega
      · rw [hstep]
        exact ih hfull (by omega)

/-- The level was a candidate, and the candidates since then and the hold that is left fit into a
full hold. -/
def HeldFrom (fullHold : Nat) (cs : List DangerLevel) (g : HysteresisGate) : Prop :=
  ∃ old recent, cs = old ++ g.level :: recent ∧ recent.length + g.hold ≤ fullHold

theorem heldFrom_concat_level (cs : List DangerLevel) (hhold : g.hold ≤ fullHold) :
    HeldFrom fullHold (cs ++ [g.level]) g :=
  ⟨cs, [], rfl, by simpa using hhold⟩

theorem HeldFrom.step (hheld : HeldFrom fullHold cs g) (c : DangerLevel) :
    HeldFrom fullHold (cs ++ [c]) (g.step c fullHold).1 := by
  obtain ⟨old, recent, hcs, hfit⟩ := hheld
  rcases step_cases g c fullHold with
    ⟨-, hstep⟩ | ⟨-, hhold, hstep⟩ | ⟨-, -, hstep⟩ | ⟨rfl, hstep⟩
  · rw [hstep]
    exact heldFrom_concat_level (g := ⟨c, fullHold⟩) cs (Nat.le_refl _)
  · rw [hstep]
    refine ⟨old, recent ++ [c], by simp [hcs], ?_⟩
    simp only [List.length_append, List.length_singleton]
    omega
  · rw [hstep]
    exact heldFrom_concat_level (g := ⟨c, 0⟩) cs (Nat.zero_le _)
  · rw [hstep]
    exact heldFrom_concat_level cs (by omega)

theorem heldFrom_first (fullHold : Nat) (c : DangerLevel) :
    HeldFrom fullHold [c] (after fullHold [c]) := by
  cases c with
  | safe => exact ⟨[], [], rfl, Nat.zero_le _⟩
  | caution => exact ⟨[], [], rfl, Nat.le_of_eq (Nat.zero_add _)⟩
  | warn => exact ⟨[], [], rfl, Nat.le_of_eq (Nat.zero_add _)⟩

theorem heldFrom_after (fullHold : Nat) (hne : cs ≠ []) :
    HeldFrom fullHold cs (after fullHold cs) := by
  induction cs using List.reverseRecOn with
  | nil => contradiction
  | append_singleton cs c ih =>
      by_cases hcs : cs = []
      · subst hcs
        exact heldFrom_first fullHold c
      · rw [after_concat]
        exact (ih hcs).step c

/-! ## After a raise -/

/-- A gate raised to a level, with a number of lower candidates and a last candidate since: it holds
the level while the lower candidates fit into the hold, and follows the last candidate after that. -/
def RaisedTo (fullHold : Nat) (level : DangerLevel) (lows : Nat) (last : DangerLevel)
    (g : HysteresisGate) : Prop :=
  (lows ≤ fullHold ∧ g = ⟨level, fullHold - lows⟩) ∨
    (fullHold < lows ∧ last < level ∧ g = ⟨last, 0⟩)

theorem raisedTo_raise (fullHold : Nat) (c : DangerLevel) :
    RaisedTo fullHold c 0 c ⟨c, fullHold⟩ :=
  Or.inl ⟨Nat.zero_le _, rfl⟩

theorem RaisedTo.step
    (hraised : RaisedTo fullHold level lows last g) (hno : ¬g.level < c) :
    RaisedTo fullHold level (lows + if c < level then 1 else 0) c (g.step c fullHold).1 := by
  rw [DangerLevel.lt_iff_rank_lt] at hno
  rcases hraised with ⟨hfit, rfl⟩ | ⟨hspent, hlast, rfl⟩
  · rcases step_cases ⟨level, fullHold - lows⟩ c fullHold with
      ⟨hraise, -⟩ | ⟨hlow, hhold, hstep⟩ | ⟨hlow, hhold, hstep⟩ | ⟨hsame, hstep⟩
    · exact absurd hraise hno
    · rw [hstep, if_pos hlow]
      exact Or.inl ⟨by simp only at hhold; omega, by simp only [Nat.sub_add_eq]⟩
    · rw [hstep, if_pos hlow]
      exact Or.inr ⟨by simp only at hhold; omega, hlow, rfl⟩
    · have hlow : ¬c < level := by
        rw [hsame]
        exact Nat.lt_irrefl _
      rw [hstep, if_neg hlow]
      exact Or.inl ⟨hfit, rfl⟩
  · have hlow : c < level := by
      rw [DangerLevel.lt_iff_rank_lt] at hlast ⊢
      simp only at hno
      omega
    rw [if_pos hlow]
    rcases step_cases ⟨last, 0⟩ c fullHold with
      ⟨hraise, -⟩ | ⟨-, hhold, -⟩ | ⟨-, -, hstep⟩ | ⟨rfl, hstep⟩
    · exact absurd hraise hno
    · exact absurd hhold (Nat.lt_irrefl 0)
    · rw [hstep]
      exact Or.inr ⟨by omega, hlow, rfl⟩
    · rw [hstep]
      exact Or.inr ⟨by omega, hlow, rfl⟩

end HysteresisGate

end ObstacleWatch
