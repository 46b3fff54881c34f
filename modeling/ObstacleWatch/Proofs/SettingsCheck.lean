import ObstacleWatch.Settings.Risk

/-!
# Settings that pass their check

The check goes through its conditions in order and stops at the first one that is broken.  So
settings pass exactly if every condition holds; `Admissible` lists them, and what runs under checked
settings can rely on each.
-/

namespace ObstacleWatch

section Require

variable {ε α : Type} {condition : Prop} [Decidable condition] {error : ε}

theorem require_bind_eq_ok_iff {rest : Unit → Except ε α} {a : α} :
    (require condition error >>= rest) = .ok a ↔ condition ∧ rest () = .ok a := by
  unfold require
  by_cases hcondition : condition <;> simp [hcondition, bind, Except.bind]

end Require

namespace RiskSettings

/-- The conditions that settings are held to. -/
structure Admissible (s : RiskSettings) : Prop where
  emaAlpha : IsShare s.emaAlpha
  centerBandRatio : IsShare s.centerBandRatio
  nearCenterBandRatio : IsShare s.nearCenterBandRatio
  bands : s.centerBandRatio ≤ s.nearCenterBandRatio
  megaCloseHeightRatio : IsShare s.megaCloseHeightRatio
  megaCloseAreaRatio : IsShare s.megaCloseAreaRatio
  closingRateMin : IsAmount s.closingRateMin
  pttcWarn : IsDuration s.pttcWarn
  pttcCaution : IsDuration s.pttcCaution
  streaks : s.streakCaution ≤ s.streakWarn
  centerBonus : IsAmount s.centerBonus
  approachBonus : IsAmount s.approachBonus
  classWeights : ∀ entry ∈ s.classWeights, IsAmount entry.2

theorem checkWeights_eq_ok_iff {weights : List (String × Float)} :
    checkWeights weights = .ok () ↔ ∀ entry ∈ weights, IsAmount entry.2 := by
  induction weights with
  | nil => simp [checkWeights]
  | cons entry rest ih =>
      rw [checkWeights, require_bind_eq_ok_iff, ih, List.forall_mem_cons]

theorem check_eq_ok_iff {s : RiskSettings} : s.check = .ok () ↔ s.Admissible := by
  unfold check
  simp only [require_bind_eq_ok_iff, checkWeights_eq_ok_iff]
  constructor
  all_goals
    rintro ⟨halpha, hcenter, hnear, hbands, hheight, harea, hrate, hwarn, hcaution, hstreaks,
      hcenterBonus, happroachBonus, hweights⟩
    exact ⟨halpha, hcenter, hnear, hbands, hheight, harea, hrate, hwarn, hcaution, hstreaks,
      hcenterBonus, happroachBonus, hweights⟩

theorem Admissible.classWeight {s : RiskSettings} (hs : s.Admissible) (className : String) :
    IsAmount (s.classWeight className) := by
  unfold RiskSettings.classWeight
  cases hlookup : s.classWeights.lookup className with
  | none => exact by decide +kernel
  | some weight =>
      obtain ⟨before, after, hsplit, -⟩ := List.lookup_eq_some_iff.mp hlookup
      exact hs.classWeights (className, weight) (by simp [hsplit])

end RiskSettings

end ObstacleWatch
