import ObstacleWatch.Proofs.SoundMetrics

/-!
# More danger never lowers the score

The score adds up six parts, and each of them goes one way: the level, the class and the two bonuses
raise it, while a greater distance and a longer time to collision lower what they are inverted to.
The bounds under the two inverses keep the order, and at the cutoff the urgency only drops to zero,
which no urgency is below.  Sums of such parts keep the order as well, also where a heavy class
makes them infinite, since rounding never changes the order of two numbers.
-/

namespace ObstacleWatch

/-! ## Parts in order -/

/-- The first number is no greater than the second, and not negative. -/
structure InOrder (x y : Float) : Prop where
  nonneg : 0 ≤ x
  le : x ≤ y

namespace InOrder

variable {x y z w bonus : Float}

theorem refl (hx : 0 ≤ x) : InOrder x x :=
  ⟨hx, float_le_refl (.right_of_le hx)⟩

theorem add (hxy : InOrder x y) (hzw : InOrder z w) : InOrder (x + z) (y + w) where
  nonneg := float_add_nonneg hxy.nonneg hzw.nonneg
  le := float_add_le_add hxy.nonneg hzw.nonneg hxy.le hzw.le

/-- Nothing is lost by adding what is not negative. -/
theorem add_right (hxy : InOrder x y) (hz : 0 ≤ z) : InOrder x (y + z) where
  nonneg := hxy.nonneg
  le := float_le_trans hxy.le (float_le_add_right (float_le_trans hxy.nonneg hxy.le) hz)

theorem weighted {k : Float} (hk : 0 < k) (hfinite : k.isFinite = true) (hxy : InOrder x y) :
    InOrder (k * x) (k * y) where
  nonneg := float_mul_nonneg_of_pos hk hfinite hxy.nonneg
  le := float_mul_le_mul_of_pos hk hfinite hxy.le

/-- A bonus that is given to the second number whenever it is given to the first. -/
theorem add_bonus (hxy : InOrder x y) (hbonus : IsAmount bonus) {given given' : Bool}
    (hgiven : given = true → given' = true) :
    InOrder (if given then x + 50 * bonus else x) (if given' then y + 50 * bonus else y) := by
  have hweighted : 0 ≤ 50 * bonus := float_mul_nonneg_of_pos (by decide +kernel) rfl hbonus.2
  cases given with
  | true =>
      rw [hgiven rfl]
      exact hxy.add (refl hweighted)
  | false =>
      cases given' with
      | true => exact hxy.add_right hweighted
      | false => exact hxy

end InOrder

/-! ## The parts of the score -/

theorem DangerLevel.rankFloat_part_inOrder {low high : DangerLevel} (hle : low ≤ high) :
    InOrder (low.rankFloat * 1000) (high.rankFloat * 1000) := by
  refine ⟨low.rankFloat_part_hasPlusSign.nonneg, ?_⟩
  revert hle
  cases low <;> cases high <;> decide +kernel

theorem RiskSettings.Admissible.classPart_inOrder {settings : RiskSettings}
    (hs : settings.Admissible) {light heavy : String}
    (hle : settings.classWeight light ≤ settings.classWeight heavy) :
    InOrder (settings.classWeight light * 100) (settings.classWeight heavy * 100) := by
  obtain ⟨hlight, hnonneg⟩ := hs.classWeight light
  have hhundred : (0 : Float) ≤ 100 ∧ (100 : Float) ≤ 100 := by decide +kernel
  exact ⟨float_mul_nonneg_of_isFinite hnonneg hhundred.1 hlight rfl,
    float_mul_le_mul hnonneg hhundred.1 hle hhundred.2 (hs.classWeight heavy).1 rfl⟩

variable {near far : Float}

theorem closeness_inOrder (hle : near ≤ far) : InOrder (closeness far) (closeness near) :=
  ⟨closeness_nonneg far, inverse_atLeast_le (by decide +kernel) hle⟩

/-- A time behind the cutoff has no urgency; before it, the shorter time is the more urgent. -/
theorem urgency_inOrder (hle : near ≤ far) : InOrder (urgency far) (urgency near) := by
  refine ⟨urgency_nonneg far, ?_⟩
  by_cases hcutoff : far ≤ urgencyCutoff
  · rw [urgency, if_pos hcutoff, urgency, if_pos (float_le_trans hle hcutoff)]
    exact inverse_atLeast_le (by decide +kernel) hle
  · rw [urgency, if_neg hcutoff]
    exact urgency_nonneg near

/-! ## The score -/

namespace ScoreView

/-- The first view is in no respect that the score takes in more dangerous than the second.  The
distances and the times can be compared, so they are numbers. -/
structure NoMoreDangerous (settings : RiskSettings) (a b : ScoreView) : Prop where
  level : a.level ≤ b.level
  distance : b.distance ≤ a.distance
  pttc : b.pttc ≤ a.pttc
  classWeight : settings.classWeight a.className ≤ settings.classWeight b.className
  inCenter : a.inCenter = true → b.inCenter = true
  approaching : a.approaching = true → b.approaching = true

end ScoreView

/-- A view that is in no respect more dangerous has no higher score. -/
theorem score_le_of_noMoreDangerous {settings : RiskSettings} (hcheck : settings.check = .ok ())
    {a b : ScoreView} (hle : a.NoMoreDangerous settings b) :
    score settings a ≤ score settings b := by
  have hs : settings.Admissible := RiskSettings.check_eq_ok_iff.mp hcheck
  have hclose : InOrder (30 * closeness a.distance) (30 * closeness b.distance) :=
    (closeness_inOrder hle.distance).weighted (by decide +kernel) rfl
  have hurgent : InOrder (20 * urgency a.pttc) (20 * urgency b.pttc) :=
    (urgency_inOrder hle.pttc).weighted (by decide +kernel) rfl
  have hparts := (((DangerLevel.rankFloat_part_inOrder hle.level).add
    (hs.classPart_inOrder hle.classWeight)).add hclose).add hurgent
  have hcenter := hparts.add_bonus hs.centerBonus hle.inCenter
  exact (hcenter.add_bonus hs.approachBonus hle.approaching).le

/-- Settings with a class so heavy that its part of the score is infinite. -/
def heavyClassSettings : RiskSettings :=
  { RiskSettings.default with classWeights := [("Cart", 0.8), ("Truck", 1e308)] }

theorem heavyClassSettings_check : heavyClassSettings.check = .ok () := by
  have hdefault : RiskSettings.default.Admissible := RiskSettings.check_eq_ok_iff.mp
    (RiskEngine.ofSettings_eq_ok_iff.mp RiskEngine.ofSettings_default).1
  exact RiskSettings.check_eq_ok_iff.mpr { hdefault with classWeights := by decide +kernel }

/-- A cart at rest, and a truck that is a warning at a negative distance. -/
theorem score_le_of_noMoreDangerous_heavyTruck :
    let cart : ScoreView := ⟨"Cart", .caution, 0.25, 1e9, false, true⟩
    let truck : ScoreView := ⟨"Truck", .warn, -1, 0, true, true⟩
    heavyClassSettings.check = .ok () ∧ cart.NoMoreDangerous heavyClassSettings truck ∧
      (score heavyClassSettings truck).isFinite = false ∧
      score heavyClassSettings cart ≤ score heavyClassSettings truck := by
  intro cart truck
  have hle : cart.NoMoreDangerous heavyClassSettings truck := by
    constructor <;> decide +kernel
  exact ⟨heavyClassSettings_check, hle, by decide +kernel,
    score_le_of_noMoreDangerous heavyClassSettings_check hle⟩

end ObstacleWatch
