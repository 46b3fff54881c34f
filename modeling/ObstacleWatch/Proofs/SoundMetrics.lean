import ObstacleWatch.Proofs.BoxMeasures
import ObstacleWatch.Proofs.SettingsCheck
import ObstacleWatch.Proofs.TrackInvariant

/-!
# Metrics that decisions can rely on

Boxes, frame sizes and frame rates can be anything, so a distance average can become infinite or
stop being a number, and its track keeps it.  What an engine reports is sound nevertheless.  An
average that is a number is not negative; this is what every track has.  A closing rate is positive
only if the average before and after were numbers, so a time to collision is never computed from
anything else; and the score takes bounds of what it inverts.
-/

namespace ObstacleWatch

variable {settings : RiskSettings}

/-! ## Motion -/

theorem isAmount_zero : IsAmount 0 := by decide +kernel

theorem IsShare.rest_nonneg {x : Float} (hx : IsShare x) : 0 ≤ 1 - x :=
  float_sub_nonneg rfl hx.2

namespace DistanceAverage

/-- The average is not negative, unless it is not a number. -/
def IsNonneg (a : DistanceAverage) : Prop :=
  ∀ x, a.current = some x → IsNumber x → 0 ≤ x

variable {a : DistanceAverage} {alpha sample fps before after : Float}

theorem isNonneg_empty : empty.IsNonneg := by
  intro x hcurrent
  contradiction

theorem IsNonneg.smooth (ha : a.IsNonneg) (halpha : IsShare alpha) (hsample : 0 ≤ sample)
    (hnumber : IsNumber (smooth alpha sample a.current)) :
    0 ≤ DistanceAverage.smooth alpha sample a.current := by
  cases hcurrent : a.current with
  | none => exact hsample
  | some previous =>
      rw [hcurrent] at hnumber
      obtain ⟨hnew, hold⟩ := IsNumber.of_add hnumber
      have hprevious : 0 ≤ previous := ha previous hcurrent hold.of_mul.2
      exact float_add_nonneg (float_mul_nonneg (float_le_of_lt halpha.1) hsample hnew)
        (float_mul_nonneg halpha.rest_nonneg hprevious hold)

theorem closingRate_isAmount (fps before after : Float) :
    IsAmount (closingRate fps before after) := by
  unfold closingRate
  split
  · by_cases hfinite : ((before - after) * fps).isFinite = true
    · rw [if_pos hfinite]
      refine ⟨?_, zero_le_atLeast _⟩
      unfold atLeast
      split
      · exact hfinite
      · exact isAmount_zero.1
    · rw [if_neg hfinite]
      exact isAmount_zero
  · exact isAmount_zero

/-- Only numbers give a closing rate above one that counts as standing still. -/
theorem isNumber_of_closing (hclosing : leastClosingRate < closingRate fps before after) :
    IsNumber after := by
  have hstill : ¬leastClosingRate < 0 := by decide +kernel
  unfold closingRate at hclosing
  split at hclosing
  · by_cases hfinite : ((before - after) * fps).isFinite = true
    · exact (IsNumber.of_isFinite hfinite).of_mul.1.of_sub.2
    · rw [if_neg hfinite] at hclosing
      exact absurd hclosing hstill
  · exact absurd hclosing hstill

end DistanceAverage

/-- The sample can be used: its rate is an amount, and its distance is a number that is not negative
whenever the rate counts as closing. -/
structure MotionSample.IsSound (m : MotionSample) : Prop where
  closingRate : IsAmount m.closingRate
  distance : leastClosingRate < m.closingRate → 0 ≤ m.distance

namespace DistanceAverage

variable {a : DistanceAverage} {alpha sample : Float}

theorem IsNonneg.update (ha : a.IsNonneg) (halpha : IsShare alpha) (hsample : 0 ≤ sample)
    (fps : Float) :
    (a.update sample alpha fps).1.IsNonneg ∧ (a.update sample alpha fps).2.IsSound := by
  have hsmooth := ha.smooth halpha hsample
  refine ⟨?_, ?_, ?_⟩
  · intro x hcurrent hnumber
    obtain rfl : DistanceAverage.smooth alpha sample a.current = x := Option.some.inj hcurrent
    exact hsmooth hnumber
  · unfold DistanceAverage.update
    cases a.current with
    | none => exact isAmount_zero
    | some before => exact closingRate_isAmount _ _ _
  · unfold DistanceAverage.update
    cases hcurrent : a.current with
    | none => exact fun _ => hsample
    | some before =>
        rw [hcurrent] at hsmooth
        exact fun hclosing => hsmooth (isNumber_of_closing hclosing)

end DistanceAverage

theorem MotionSample.IsSound.timeToCollision_nonneg {m : MotionSample} (hm : m.IsSound) :
    0 ≤ timeToCollision m.distance m.closingRate := by
  unfold timeToCollision
  by_cases hclosing : leastClosingRate < m.closingRate
  · have hleast : 0 ≤ leastClosingRate := by decide +kernel
    have hpos : 0 < m.closingRate := float_lt_of_le_of_lt hleast hclosing
    rw [if_pos hclosing]
    exact float_div_nonneg (hm.distance hclosing) hpos (.inr hm.closingRate.1)
  · rw [if_neg hclosing]
    exact by decide +kernel

/-! ## Score -/

theorem closeness_nonneg (distance : Float) : 0 ≤ closeness distance :=
  inverse_atLeast_nonneg (by decide +kernel) distance

theorem urgency_nonneg (pttc : Float) : 0 ≤ urgency pttc := by
  unfold urgency
  split
  · exact inverse_atLeast_nonneg (by decide +kernel) pttc
  · exact float_le_refl isNumber_zero

/-- The number is not negative, and not the negative zero either. -/
structure HasPlusSign (x : Float) : Prop where
  nonneg : 0 ≤ x
  ne_neg_zero : x ≠ -0

theorem HasPlusSign.add {part more : Float} (hpart : HasPlusSign part) (hmore : 0 ≤ more) :
    HasPlusSign (part + more) where
  nonneg := float_add_nonneg hpart.nonneg hmore
  ne_neg_zero := float_add_ne_neg_zero hpart.nonneg hmore hpart.ne_neg_zero

theorem DangerLevel.rankFloat_part_hasPlusSign (level : DangerLevel) :
    HasPlusSign (level.rankFloat * 1000) := by
  refine ⟨by cases level <;> decide +kernel, ?_⟩
  intro heq
  have hbits := congrArg Float.toBits heq
  revert hbits
  cases level <;> decide +kernel

theorem HasPlusSign.add_bonus {part bonus : Float} (hpart : HasPlusSign part)
    (hbonus : IsAmount bonus) (given : Bool) :
    HasPlusSign (if given then part + 50 * bonus else part) := by
  cases given with
  | false => exact hpart
  | true =>
      have hweighted : 0 ≤ 50 * bonus :=
        float_mul_nonneg_of_pos (by decide +kernel) rfl hbonus.2
      exact hpart.add hweighted

/-- Whatever a score is computed from, it is not negative. -/
theorem RiskSettings.Admissible.score_hasPlusSign (hs : settings.Admissible) (v : ScoreView) :
    HasPlusSign (score settings v) := by
  obtain ⟨hfinite, hweight⟩ := hs.classWeight v.className
  have hclass : 0 ≤ settings.classWeight v.className * 100 :=
    float_mul_nonneg_of_isFinite hweight (by decide +kernel) hfinite rfl
  have hclose : 0 ≤ 30 * closeness v.distance :=
    float_mul_nonneg_of_pos (by decide +kernel) rfl (closeness_nonneg v.distance)
  have hurgent : 0 ≤ 20 * urgency v.pttc :=
    float_mul_nonneg_of_pos (by decide +kernel) rfl (urgency_nonneg v.pttc)
  have hparts := ((v.level.rankFloat_part_hasPlusSign.add hclass).add hclose).add hurgent
  exact (hparts.add_bonus hs.centerBonus v.inCenter).add_bonus hs.approachBonus v.approaching

theorem RiskSettings.Admissible.score_nonneg (hs : settings.Admissible) (v : ScoreView) :
    0 ≤ score settings v :=
  (hs.score_hasPlusSign v).nonneg

/-! ## Metrics -/

namespace RiskMetrics

/-- Every number of the metrics that decisions are made from is one, and in its range. -/
structure IsSound (m : RiskMetrics) : Prop where
  closingRate : m.closingRate.isFinite = true ∧ 0 ≤ m.closingRate
  pttc : m.pttc.isNaN = false ∧ 0 ≤ m.pttc
  score : m.score.isNaN = false ∧ 0 ≤ m.score
  boxHeight : m.boxHeight.isNaN = false ∧ 1 ≤ m.boxHeight
  area : m.area.isNaN = false ∧ 1 ≤ m.area

/-- The scores of two metrics can be compared. -/
def Comparable (a b : RiskMetrics) : Prop :=
  a.score < b.score ∨ (a.score == b.score) = true ∨ b.score < a.score

theorem IsSound.comparable {a b : RiskMetrics} (ha : a.IsSound) (hb : b.IsSound) :
    a.Comparable b :=
  float_lt_trichotomy ha.score.1 hb.score.1

end RiskMetrics

theorem isNonneg_found {slot : Option Track} (hslot : ∀ t, slot = some t → t.motion.IsNonneg)
    (frame : Nat) : (Track.found frame slot).motion.IsNonneg := by
  cases slot with
  | none => exact DistanceAverage.isNonneg_empty
  | some t => exact hslot t rfl

theorem slotSight_isNonneg (hs : settings.Admissible) :
    KeptBySights settings fun t => t.motion.IsNonneg := by
  intro ctx key slot d hslot
  have hdistance := BoxGeometry.distance_nonneg settings ctx.size d
  exact ((isNonneg_found hslot ctx.index).update hs.emaAlpha hdistance ctx.fps).1

theorem slotSight_isSound (hs : settings.Admissible) (ctx : FrameContext) (key : TrackKey)
    {slot : Option Track} (hslot : ∀ t, slot = some t → t.motion.IsNonneg) (d : Detection) :
    (slotSight settings ctx key slot d).2.metrics.IsSound := by
  let m := (slotSight settings ctx key slot d).2.metrics
  have hdistance := BoxGeometry.distance_nonneg settings ctx.size d
  have hsample := ((isNonneg_found hslot ctx.index).update hs.emaAlpha hdistance ctx.fps).2
  have hpttc : 0 ≤ m.pttc := hsample.timeToCollision_nonneg
  have hscore : 0 ≤ m.score := hs.score_nonneg _
  have hheight : 1 ≤ m.boxHeight := BoxGeometry.one_le_boxHeight settings ctx.size d
  have harea : 1 ≤ m.area := BoxGeometry.one_le_area settings ctx.size d
  exact {
    closingRate := hsample.closingRate
    pttc := ⟨IsNumber.right_of_le hpttc, hpttc⟩
    score := ⟨IsNumber.right_of_le hscore, hscore⟩
    boxHeight := ⟨IsNumber.right_of_le hheight, hheight⟩
    area := ⟨IsNumber.right_of_le harea, harea⟩ }

/-- Whatever boxes, frame sizes and frame rates an engine is given, its metrics are sound, and any
two scores of a frame can be compared. -/
theorem metrics_sound_on_any_run
    {engine : RiskEngine} (hnew : RiskEngine.ofSettings settings = .ok engine)
    (frames : List EngineFrame) :
    ∀ taken ∈ engine.run frames,
      (∀ m ∈ taken.report.metrics, m.IsSound) ∧
        ∀ a ∈ taken.report.metrics, ∀ b ∈ taken.report.metrics, a.Comparable b := by
  have hs : settings.Admissible :=
    RiskSettings.check_eq_ok_iff.mp (RiskEngine.ofSettings_eq_ok_iff.mp hnew).1
  intro taken hmem
  have hsound : ∀ m ∈ taken.report.metrics, m.IsSound := by
    intro m hm
    obtain ⟨s, hmemS, rfl⟩ := List.mem_map.mp hm
    obtain ⟨key, slot, hslot, hsight⟩ :=
      RiskEngine.exists_slot_of_mem_run hnew (slotSight_isNonneg hs) hmem hmemS
    rw [hsight]
    exact slotSight_isSound hs _ key hslot _
  exact ⟨hsound, fun a ha b hb => (hsound a ha).comparable (hsound b hb)⟩

/-- A box with its lower edge infinitely far up, and then one in the frame: the average is infinite
from the first frame on. -/
theorem metrics_sound_on_any_run_infinite_box :
    let engine : RiskEngine := ⟨.default, .empty, 0⟩
    let context : FrameContext := ⟨⟨640, 480⟩, 0, 30⟩
    let frames : List EngineFrame :=
      [⟨context, [⟨1, 0, "Person", 1, ⟨260, 100, 380, -1 / 0⟩⟩]⟩,
        ⟨{ context with index := 1 }, [⟨1, 0, "Person", 1, ⟨260, 100, 380, 400⟩⟩]⟩]
    RiskEngine.ofSettings .default = .ok engine ∧
      ∀ taken ∈ engine.run frames,
        (∀ m ∈ taken.report.metrics, m.IsSound) ∧
          ∀ a ∈ taken.report.metrics, ∀ b ∈ taken.report.metrics, a.Comparable b := by
  intro engine context frames
  have hnew : RiskEngine.ofSettings .default = .ok engine := RiskEngine.ofSettings_default
  exact ⟨hnew, metrics_sound_on_any_run hnew frames⟩

end ObstacleWatch
