import ObstacleWatch.Proofs.GateHistory

/-!
# The exact delay of the gate

What a gate does with a candidate depends on its last raise and on the number of lower candidates
since then.  As many of them as the full hold are held off, wherever they occur; the next one is
taken, and from then on every one that is lower still.  Candidates that confirm the level are not
counted, and a raise starts the count again, also from a level that is still held.
-/

namespace ObstacleWatch.HysteresisGate

variable {fullHold : Nat} {past since : List DangerLevel} {raise c : DangerLevel}

/-- How many of some candidates lie below a level. -/
def lowsBelow (level : DangerLevel) (cs : List DangerLevel) : Nat :=
  cs.countP fun c => c < level

theorem lowsBelow_concat (level : DangerLevel) (cs : List DangerLevel) (c : DangerLevel) :
    lowsBelow level (cs ++ [c]) = lowsBelow level cs + if c < level then 1 else 0 := by
  rw [lowsBelow, List.countP_append, List.countP_singleton]
  simp only [decide_eq_true_eq, lowsBelow]

/-- A history that raised the level with one candidate, and has not raised it since. -/
structure RaisedBefore (fullHold : Nat) (past : List DangerLevel) (raise : DangerLevel)
    (since : List DangerLevel) : Prop where
  raises : ((after fullHold past).step raise fullHold).2 = .escalated
  last : ∀ before c, before ++ [c] <+: since →
    ((after fullHold (past ++ raise :: before)).step c fullHold).2 ≠ .escalated

theorem RaisedBefore.of_concat (hraised : RaisedBefore fullHold past raise (since ++ [c])) :
    RaisedBefore fullHold past raise since where
  raises := hraised.raises
  last before c' hfront := hraised.last before c' (hfront.trans (List.prefix_append since [c]))

/-- Since its last raise a gate is known exactly from the number of lower candidates. -/
theorem RaisedBefore.raisedTo (hraised : RaisedBefore fullHold past raise since) :
    RaisedTo fullHold raise (lowsBelow raise since) (since.getLastD raise)
      (after fullHold (past ++ raise :: since)) := by
  induction since using List.reverseRecOn with
  | nil =>
      have hlt := lt_of_step_escalated hraised.raises
      rw [after_concat, step_of_lt fullHold hlt]
      exact raisedTo_raise fullHold raise
  | append_singleton since c ih =>
      have hno : ¬(after fullHold (past ++ raise :: since)).level < c := by
        intro hlt
        have hquiet := hraised.last since c List.prefix_rfl
        rw [step_of_lt fullHold hlt] at hquiet
        exact hquiet rfl
      have hnext := (ih hraised.of_concat).step hno
      rw [← List.cons_append, ← List.append_assoc, after_concat, lowsBelow_concat,
        List.getLastD_concat]
      exact hnext

theorem RaisedTo.step_held {lows : Nat} {last : DangerLevel} {g : HysteresisGate}
    (hraised : RaisedTo fullHold raise lows last g) (hlow : c < raise) (hfit : lows < fullHold) :
    g.step c fullHold = (⟨raise, fullHold - (lows + 1)⟩, .holding) := by
  rcases hraised with ⟨-, rfl⟩ | ⟨hspent, -, -⟩
  · have hhold : 0 < fullHold - lows := by omega
    rw [step_of_hold fullHold hlow hhold, Nat.sub_add_eq]
  · omega

theorem RaisedTo.step_dropped {last : DangerLevel} {g : HysteresisGate}
    (hraised : RaisedTo fullHold raise fullHold last g) (hlow : c < raise) :
    g.step c fullHold = (⟨c, 0⟩, .decayed) := by
  rcases hraised with ⟨-, rfl⟩ | ⟨hspent, -, -⟩
  · exact step_of_no_hold fullHold hlow (Nat.sub_self fullHold)
  · exact absurd hspent (Nat.lt_irrefl fullHold)

theorem RaisedTo.step_followed {lows : Nat} {last : DangerLevel} {g : HysteresisGate}
    (hraised : RaisedTo fullHold raise lows last g) (hspent : fullHold < lows)
    (hlow : c < g.level) : g.step c fullHold = (⟨c, 0⟩, .decayed) := by
  rcases hraised with ⟨hfit, -⟩ | ⟨-, -, rfl⟩
  · omega
  · exact step_of_no_hold fullHold hlow rfl

/-- How a gate answers a candidate after any history. -/
structure DelaysExactly (fullHold : Nat) : Prop where
  neverBelow : ∀ past c, c ≤ (after fullHold (past ++ [c])).level
  raises : ∀ past c, (after fullHold past).level < c →
    (after fullHold past).step c fullHold = (⟨c, fullHold⟩, .escalated)
  confirms : ∀ past c, c = (after fullHold past).level →
    (after fullHold past).step c fullHold = (after fullHold past, .unchanged)
  holds : ∀ past raise since c, RaisedBefore fullHold past raise since → c < raise →
    lowsBelow raise since < fullHold →
      (after fullHold (past ++ raise :: since)).step c fullHold =
        (⟨raise, fullHold - (lowsBelow raise since + 1)⟩, .holding)
  drops : ∀ past raise since c, RaisedBefore fullHold past raise since → c < raise →
    lowsBelow raise since = fullHold →
      (after fullHold (past ++ raise :: since)).step c fullHold = (⟨c, 0⟩, .decayed)
  follows : ∀ past raise since c, RaisedBefore fullHold past raise since →
    fullHold < lowsBelow raise since → c < (after fullHold (past ++ raise :: since)).level →
      (after fullHold (past ++ raise :: since)).step c fullHold = (⟨c, 0⟩, .decayed)

/-- Of the candidates below the level of the last raise exactly the first ones, as many as the full
hold, are held off. -/
theorem delays_exactly (fullHold : Nat) : DelaysExactly fullHold where
  neverBelow past c := by
    rw [after_concat]
    exact le_level_step _ _ _
  raises past c hlt := step_of_lt fullHold hlt
  confirms past c hsame := by
    subst hsame
    exact step_level _ fullHold
  holds past raise since c hraised hlow hfit := hraised.raisedTo.step_held hlow hfit
  drops past raise since c hraised hlow hspent := by
    have hexact := hraised.raisedTo
    rw [hspent] at hexact
    exact hexact.step_dropped hlow
  follows past raise since c hraised hspent hlow := hraised.raisedTo.step_followed hspent hlow

/-- The hold of a caution is still running when the warning starts the count again; the warning that
is confirmed in between is not counted. -/
example :
    after 2 [.caution, .safe, .warn, .safe, .warn, .caution] = ⟨.warn, 0⟩ ∧
      step ⟨.warn, 0⟩ .caution 2 = (⟨.caution, 0⟩, .decayed) ∧
      step ⟨.caution, 0⟩ .safe 2 = (⟨.safe, 0⟩, .decayed) := by
  decide

end ObstacleWatch.HysteresisGate
