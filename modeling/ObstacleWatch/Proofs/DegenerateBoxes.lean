import ObstacleWatch.Proofs.StaticObject
import ObstacleWatch.Proofs.TrackCensus

/-!
# Boxes without an area

A side of a box that has no length, or that an edge which is not a number takes the length from,
counts as one pixel; the other side stays as it is.  A detection on first sight has no motion, so
its level is raised by the size of its box or by the leave of the settings only.  If its box has no
centre, because the left or the right edge is not a number, it lies in no band, and nothing raises
its level.
-/

namespace ObstacleWatch

variable {settings : RiskSettings} {size : FrameSize} {d : Detection} {s : Sighting}

/-! ## Degenerate sides -/

namespace Detection

/-- The box has no height, seen from its upper edge down, or one of these edges is not a number. -/
def IsFlat (d : Detection) : Prop :=
  widen d.box.bottom ≤ widen d.box.top ∨ ¬IsNumber (widen d.box.top) ∨
    ¬IsNumber (widen d.box.bottom)

/-- The box has no width, seen from its left edge, or one of these edges is not a number. -/
def IsThin (d : Detection) : Prop :=
  widen d.box.right ≤ widen d.box.left ∨ ¬IsNumber (widen d.box.left) ∨
    ¬IsNumber (widen d.box.right)

def HasNoCenter (d : Detection) : Prop :=
  ¬IsNumber (widen d.box.left) ∨ ¬IsNumber (widen d.box.right)

def IsDegenerate (d : Detection) : Prop :=
  d.IsFlat ∨ d.IsThin

instance : DecidablePred IsFlat :=
  fun _ => inferInstanceAs (Decidable (_ ∨ ¬_ ∨ ¬_))

instance : DecidablePred IsThin :=
  fun _ => inferInstanceAs (Decidable (_ ∨ ¬_ ∨ ¬_))

instance : DecidablePred IsDegenerate :=
  fun _ => inferInstanceAs (Decidable (_ ∨ _))

theorem HasNoCenter.not_isNumber_centerX (hd : d.HasNoCenter) : ¬IsNumber d.centerX := by
  intro hcenter
  obtain ⟨hleft, hright⟩ := hcenter.of_mul.2.of_add
  rcases hd with hnone | hnone
  · exact hnone hleft
  · exact hnone hright

end Detection

theorem atLeast_one_sub_of_degenerate {a b : Float}
    (hside : b ≤ a ∨ ¬IsNumber a ∨ ¬IsNumber b) : atLeast 1 (b - a) = 1 := by
  refine atLeast_of_not_lt fun hlong => ?_
  have hnumber : IsNumber (b - a) := .right_of_lt hlong
  rcases hside with hle | hnone | hnone
  · have hdrop : value b - value a ≤ 0 :=
      (EReal.sub_le_sub (le_iff_value.mp hle).2.2 le_rfl).trans EReal.sub_self_le_zero
    have hvalue : value (b - a) ≤ 0 := by
      rw [value_sub hnumber, ← rounded_zero]
      exact rounded_mono hdrop
    have hpos := (pos_iff_value.mp (float_lt_of_lt_of_le (by decide +kernel)
      (float_le_of_lt hlong))).2
    exact hpos.not_ge hvalue
  · exact hnone hnumber.of_sub.2
  · exact hnone hnumber.of_sub.1

theorem inBand_eq_false {center : Float} (hcenter : ¬IsNumber center)
    (frameWidth ratio : Float) : inBand center frameWidth ratio = false := by
  unfold inBand
  have hleft : ¬(1 - ratio) * 0.5 * frameWidth ≤ center := fun hle => hcenter (.right_of_le hle)
  simp [hleft]

namespace BoxGeometry

variable (settings : RiskSettings) (size : FrameSize)

theorem boxHeight_of_isFlat (hd : d.IsFlat) : (measure settings size d).boxHeight = 1 :=
  atLeast_one_sub_of_degenerate hd

theorem boxWidth_of_isThin (hd : d.IsThin) : (measure settings size d).boxWidth = 1 :=
  atLeast_one_sub_of_degenerate hd

theorem area_of_isThin (hd : d.IsThin) :
    (measure settings size d).area = (measure settings size d).boxHeight := by
  have harea : (measure settings size d).area =
      (measure settings size d).boxWidth * (measure settings size d).boxHeight := rfl
  rw [harea, boxWidth_of_isThin settings size hd]
  exact float_one_mul (one_le_boxHeight settings size d)

theorem notInBands_of_hasNoCenter (hd : d.HasNoCenter) :
    (measure settings size d).inCenter = false ∧ (measure settings size d).inNearCenter = false :=
  ⟨inBand_eq_false hd.not_isNumber_centerX _ _, inBand_eq_false hd.not_isNumber_centerX _ _⟩

end BoxGeometry

/-! ## First sightings -/

theorem firstMetrics_level (settings : RiskSettings) (size : FrameSize) (d : Detection) :
    (firstMetrics settings size d).level =
      candidateLevel settings
        ⟨(firstMetrics settings size d).inCenter, (firstMetrics settings size d).inNearCenter,
          (firstMetrics settings size d).megaClose,
          nextStreak 0 (firstMetrics settings size d).approaching
            (firstMetrics settings size d).inCenter (firstMetrics settings size d).inNearCenter,
          (firstMetrics settings size d).pttc⟩ :=
  HysteresisGate.level_step_initial _ _

theorem firstMetrics_standsStill (settings : RiskSettings) (size : FrameSize) (d : Detection) :
    StandsStill settings (firstMetrics settings size d) := by
  let first := slotSight settings ⟨size, 0, 0⟩ (.ofDetection 0 0 d) none d
  have hrate : first.2.metrics.closingRate = 0 := rfl
  exact standsStill_of_closingRate ⟨size, 0, 0⟩ d hrate

theorem nextStreak_zero (s : Sighting) :
    nextStreak 0 s.metrics.approaching s.metrics.inCenter s.metrics.inNearCenter =
      ([] ++ [s] : List Sighting).countP fun s => s.ApproachesInBand := by
  have hband : (s.metrics.approaching && (s.metrics.inCenter || s.metrics.inNearCenter)) =
      decide s.ApproachesInBand := by
    rw [Bool.eq_iff_iff, decide_eq_true_iff, Sighting.ApproachesInBand]
    simp
  rw [nextStreak, hband, List.nil_append, List.countP_singleton]
  rfl

/-- On first sight the level is raised by exactly what raises it at rest. -/
theorem level_ne_safe_iff_of_first (hfirst : s.metrics = firstMetrics settings size s.detection) :
    s.metrics.level ≠ .safe ↔ RaisesAtRest settings [] s := by
  have hpttc : s.metrics.pttc = neverCollides := by
    rw [hfirst]
    exact (firstMetrics_standsStill settings size s.detection).pttc
  have hlevel := firstMetrics_level settings size s.detection
  rw [← hfirst, hpttc, nextStreak_zero s] at hlevel
  rw [hlevel, candidateLevel_ne_safe_iff, RaisesAtRest, FillsFrame]
  tauto

/-- What is reported for a box on first sight. -/
structure RestsAtFirstSight (settings : RiskSettings) (s : Sighting) : Prop extends
    StandsStill settings s.metrics where
  flat : s.detection.IsFlat → s.metrics.boxHeight = 1
  thin : s.detection.IsThin → s.metrics.area = s.metrics.boxHeight
  noCenter : s.detection.HasNoCenter → s.metrics.level = .safe
  /-- Unless the box fills the frame, the level is up to the settings. -/
  level : ¬FillsFrame s.metrics → (s.metrics.level = .safe ↔ ¬RaisesAtRest settings [] s)
  needsMotion : settings.NeedsMotion → ¬FillsFrame s.metrics → s.metrics.level = .safe

theorem restsAtFirstSight (hfirst : s.metrics = firstMetrics settings size s.detection) :
    RestsAtFirstSight settings s := by
  have hstill : StandsStill settings s.metrics :=
    hfirst ▸ firstMetrics_standsStill settings size s.detection
  have hraised := level_ne_safe_iff_of_first hfirst
  refine ⟨hstill, fun hflat => ?_, fun hthin => ?_, fun hnone => ?_, fun _ => ?_,
    fun hmotion hsmall => ?_⟩
  · rw [hfirst]
    exact BoxGeometry.boxHeight_of_isFlat settings size hflat
  · rw [hfirst]
    exact BoxGeometry.area_of_isThin settings size hthin
  · obtain ⟨hcenter, hnear⟩ : s.metrics.inCenter = false ∧ s.metrics.inNearCenter = false := by
      rw [hfirst]
      exact BoxGeometry.notInBands_of_hasNoCenter settings size hnone
    by_contra hlevel
    rcases hraised.mp hlevel with ⟨-, hin⟩ | ⟨hin, -⟩ | ⟨hin, -⟩
    · rw [hnear] at hin
      contradiction
    · rw [hcenter] at hin
      contradiction
    · rw [hnear] at hin
      contradiction
  · rw [← hraised, not_not]
  · by_contra hlevel
    refine hsmall ((hraised.mp hlevel).fillsFrame hmotion ?_)
    simpa using hstill

/-! ## Runs -/

theorem RiskEngine.metrics_of_first
    {e : RiskEngine} (he : e.tracks.AllTracked) {frames : List EngineFrame} {taken : EngineStep}
    (hmem : taken ∈ e.run frames) (hs : s ∈ taken.report.sightings)
    (hfirst : s.isNew = true ∨ ¬s.detection.IsTracked) :
    s.metrics = firstMetrics e.settings taken.frame.context.size s.detection := by
  rcases hfirst with hnew | huntracked
  · obtain ⟨before, hsettings, htaken⟩ :=
      exists_step_of_mem_run (P := fun next : RiskEngine => next.settings = e.settings)
        (fun _ _ hnext => hnext) rfl hmem
    rw [htaken, step_sightings] at hs
    rw [← hsettings]
    exact sightAll_metrics_of_isNew hs hnew
  · exact sighting_metrics_of_untracked he hmem hs huntracked

/-- A detection on first sight shows no motion, and unless its box fills the frame its level is up to
the settings; a box without a centre is safe under all of them. -/
theorem boxes_rest_at_first_sight
    {engine : RiskEngine} (hnew : RiskEngine.ofSettings settings = .ok engine)
    (frames : List EngineFrame) :
    ∀ taken ∈ engine.run frames, ∀ s ∈ taken.report.sightings,
      s.isNew = true ∨ ¬s.detection.IsTracked → RestsAtFirstSight settings s := by
  intro taken hmem s hs hfirst
  obtain ⟨-, rfl⟩ := RiskEngine.ofSettings_eq_ok_iff.mp hnew
  have hmetrics := RiskEngine.metrics_of_first TrackMap.allTracked_empty hmem hs hfirst
  exact restsAtFirstSight hmetrics

/-- A point, a box whose left edge is not a number and an upside-down one. -/
def degenerateFrames : List EngineFrame :=
  [⟨⟨⟨640, 480⟩, 0, 30⟩,
    [⟨1, 0, "Person", 1, ⟨320, 240, 320, 240⟩⟩,
      ⟨2, 0, "Person", 1, ⟨narrow (0 / 0), 100, 380, 400⟩⟩,
      ⟨-1, 0, "Person", 1, ⟨300, 400, 340, 100⟩⟩]⟩]

theorem boxes_rest_at_first_sight_degenerate :
    let engine : RiskEngine := ⟨.default, .empty, 0⟩
    RiskEngine.ofSettings .default = .ok engine ∧
      (engine.run degenerateFrames).map (·.report.sightings.length) = [3] ∧
      ∀ taken ∈ engine.run degenerateFrames, ∀ s ∈ taken.report.sightings,
        s.detection.IsDegenerate ∧ RestsAtFirstSight .default s := by
  intro engine
  have hdegenerate : ∀ taken ∈ engine.run degenerateFrames, ∀ s ∈ taken.report.sightings,
      s.detection.IsDegenerate ∧ s.isNew = true := by
    decide +kernel
  refine ⟨RiskEngine.ofSettings_default, by decide +kernel, fun taken hmem s hs => ?_⟩
  obtain ⟨hbox, hnew⟩ := hdegenerate taken hmem s hs
  exact ⟨hbox, boxes_rest_at_first_sight RiskEngine.ofSettings_default degenerateFrames taken hmem
    s hs (.inl hnew)⟩

/-- Under the settings degenerate boxes are safe on first sight, and at rest. -/
def DegenerateIsSafe (settings : RiskSettings) : Prop :=
  ∀ engine frames, RiskEngine.ofSettings settings = .ok engine →
    (∀ f ∈ frames, 0 < f.context.size.width ∧ 0 < f.context.size.height) →
      ∀ taken ∈ engine.run frames, ∀ s ∈ taken.report.sightings,
        s.isNew = true ∨ ¬s.detection.IsTracked → s.detection.IsDegenerate →
          s.metrics.level = .safe ∧ s.metrics.closingRate = 0 ∧ s.metrics.pttc = neverCollides

/-- Only a person with this box, on one frame. -/
def onePerson (box : Box) : List EngineFrame :=
  [⟨⟨⟨640, 480⟩, 0, 30⟩, [⟨1, 0, "Person", 1, box⟩]⟩]

/-- A point in the centre warns if the settings let an object at rest warn, and a line across the
whole frame is as high as the frame. -/
theorem not_degenerateIsSafe :
    ¬DegenerateIsSafe anyTimeSettings ∧ ¬DegenerateIsSafe .default := by
  have hany : RiskEngine.ofSettings anyTimeSettings = .ok ⟨anyTimeSettings, .empty, 0⟩ :=
    RiskEngine.ofSettings_eq_ok_iff.mpr ⟨anyTimeSettings_check, rfl⟩
  constructor
  · intro hsafe
    have hpoint := hsafe _ (onePerson ⟨320, 240, 320, 240⟩) hany (by decide)
    revert hpoint
    decide +kernel
  · intro hsafe
    have hline := hsafe _ (onePerson ⟨320, 0, 320, 480⟩) RiskEngine.ofSettings_default (by decide)
    revert hline
    decide +kernel

end ObstacleWatch
