import ObstacleWatch.Proofs.ReportedLevel
import ObstacleWatch.Proofs.SoundMetrics
import ObstacleWatch.Proofs.UntrackedObjects

/-!
# Streams without a usable frame rate

Without a frame rate there are no closing rates: every rate is zero, and every time to collision is
the one of an object that never collides.  What this comes to depends on the settings.  A least
closing rate of zero lets every object approach, and a limit of at least the time of an object that
never collides lets it raise the level.  Under all other settings only a box that fills the frame,
roughly ahead, raises the level of its object, and as long as the object is kept.
-/

namespace ObstacleWatch

variable {settings : RiskSettings} {key : TrackKey} {slot : Option Track}
  {past all earlier : List Sighting} {s t : Sighting} {fps : Float}

/-! ## Frame rates -/

/-- The frame rate is no number, infinite, or too slow to tell a closing rate. -/
def UnusableRate (fps : Float) : Prop :=
  fps.isNaN = true ∨ fps.isInf = true ∨ fps ≤ DistanceAverage.leastFps

theorem UnusableRate.not_usable (hfps : UnusableRate fps) :
    ¬(fps.isFinite ∧ DistanceAverage.leastFps < fps) := by
  rintro ⟨hfinite, hfast⟩
  rw [isFinite_iff] at hfinite
  rcases hfps with hnan | hinf | hslow
  · have hnumber : fps.isNaN = false := hfinite.1
    rw [hnumber] at hnan
    contradiction
  · rcases isInf_iff.mp hinf with htop | hbot
    · exact hfinite.2.1 htop
    · exact hfinite.2.2 hbot
  · obtain ⟨-, -, hlt⟩ := lt_iff_value.mp (float_lt_of_lt_of_le hfast hslow)
    exact lt_irrefl _ hlt

theorem DistanceAverage.closingRate_of_unusable (hfps : UnusableRate fps) (before after : Float) :
    closingRate fps before after = 0 := by
  rw [closingRate, if_neg hfps.not_usable]

theorem timeToCollision_zero (distance : Float) : timeToCollision distance 0 = neverCollides := by
  have hstill : ¬leastClosingRate < 0 := by decide +kernel
  rw [timeToCollision, if_neg hstill]

/-! ## Metrics without motion -/

/-- The metrics of an object that shows no motion; whether it counts as approaching is up to the
settings. -/
structure StandsStill (settings : RiskSettings) (m : RiskMetrics) : Prop where
  closingRate : m.closingRate = 0
  pttc : m.pttc = neverCollides
  approaching : m.approaching = true ↔ settings.closingRateMin ≤ 0

theorem standsStill_of_closingRate (ctx : FrameContext) (d : Detection)
    (hrate : (slotSight settings ctx key slot d).2.metrics.closingRate = 0) :
    StandsStill settings (slotSight settings ctx key slot d).2.metrics := by
  have hpttc : (slotSight settings ctx key slot d).2.metrics.pttc =
      timeToCollision (slotSight settings ctx key slot d).2.metrics.distance
        (slotSight settings ctx key slot d).2.metrics.closingRate := rfl
  have happroaching : (slotSight settings ctx key slot d).2.metrics.approaching =
      isApproaching settings (slotSight settings ctx key slot d).2.metrics.closingRate := rfl
  refine ⟨hrate, ?_, ?_⟩
  · rw [hpttc, hrate, timeToCollision_zero]
  · rw [happroaching, hrate, isApproaching, decide_eq_true_iff]

theorem slotSight_standsStill {ctx : FrameContext} (hfps : UnusableRate ctx.fps) (key : TrackKey)
    (slot : Option Track) (d : Detection) :
    StandsStill settings (slotSight settings ctx key slot d).2.metrics := by
  apply standsStill_of_closingRate
  have hrate : (slotSight settings ctx key slot d).2.metrics.closingRate =
      ((Track.found ctx.index slot).motion.update
        (BoxGeometry.measure settings ctx.size d).distance settings.emaAlpha
          ctx.fps).2.closingRate := rfl
  rw [hrate, DistanceAverage.update]
  cases (Track.found ctx.index slot).motion.current with
  | none => rfl
  | some before => exact DistanceAverage.closingRate_of_unusable hfps _ _

theorem RiskEngine.mem_frames_of_mem_run
    {e : RiskEngine} {frames : List EngineFrame} {taken : EngineStep}
    (hmem : taken ∈ e.run frames) : taken.frame ∈ frames := by
  induction frames generalizing e with
  | nil => simp at hmem
  | cons f fs ih =>
      rw [run_cons] at hmem
      rcases List.mem_cons.mp hmem with rfl | hrest
      · exact List.mem_cons_self
      · exact List.mem_cons_of_mem _ (ih hrest)

theorem RiskEngine.standsStill_of_mem_run
    {engine : RiskEngine} (hnew : ofSettings settings = .ok engine) {frames : List EngineFrame}
    (hfps : ∀ f ∈ frames, UnusableRate f.context.fps) {taken : EngineStep}
    (hmem : taken ∈ engine.run frames) {s : Sighting} (hs : s ∈ taken.report.sightings) :
    StandsStill settings s.metrics := by
  obtain ⟨key, slot, -, hsight⟩ :=
    exists_slot_of_mem_run hnew (P := fun _ => True) (fun _ _ _ _ _ => trivial) hmem hs
  rw [hsight]
  exact slotSight_standsStill (hfps _ (mem_frames_of_mem_run hmem)) key slot _

/-! ## Levels without motion -/

theorem candidateLevel_ne_safe_iff {v : ApproachView} :
    candidateLevel settings v ≠ .safe ↔
      (v.megaClose = true ∧ v.inNearCenter = true) ∨
        (v.inCenter = true ∧ settings.streakWarn ≤ v.streak ∧ v.pttc ≤ settings.pttcWarn) ∨
        (v.inNearCenter = true ∧ settings.streakCaution ≤ v.streak ∧
          v.pttc ≤ settings.pttcCaution) := by
  unfold candidateLevel
  split
  · next hmega => simp [hmega]
  · next hmega =>
      split
      · next hwarn => simp [hwarn]
      · next hwarn =>
          split
          · next hcaution => simp [hcaution]
          · next hcaution => simp [hmega, hwarn, hcaution]

def FillsFrame (m : RiskMetrics) : Prop :=
  m.megaClose = true ∧ m.inNearCenter = true

instance : DecidablePred FillsFrame :=
  fun m => inferInstanceAs (Decidable (m.megaClose = true ∧ m.inNearCenter = true))

/-- What raises the level of an object that shows no motion: a box that fills the frame, or a limit
that even an object that never collides keeps to, after enough approaching detections. -/
def RaisesAtRest (settings : RiskSettings) (earlier : List Sighting) (t : Sighting) : Prop :=
  FillsFrame t.metrics ∨
    (t.metrics.inCenter = true ∧ neverCollides ≤ settings.pttcWarn ∧
      settings.streakWarn ≤ (earlier ++ [t]).countP fun s => s.ApproachesInBand) ∨
    (t.metrics.inNearCenter = true ∧ neverCollides ≤ settings.pttcCaution ∧
      settings.streakCaution ≤ (earlier ++ [t]).countP fun s => s.ApproachesInBand)

theorem Remembers.raisesAtRest {track : Track}
    (hlife : Remembers settings (earlier ++ [t]) track) (htells : Tells settings t track)
    (hpttc : t.metrics.pttc = neverCollides) (hraised : t.candidate ≠ .safe) :
    RaisesAtRest settings earlier t := by
  have hstreak := hlife.streak
  rw [← htells.streak] at hstreak
  rw [htells.candidate, candidateLevel_ne_safe_iff] at hraised
  simp only [Sighting.view, hpttc] at hraised
  rcases hraised with hmega | ⟨hcenter, hlong, hlimit⟩ | ⟨hnear, hlong, hlimit⟩
  · exact Or.inl hmega
  · exact Or.inr (Or.inl ⟨hcenter, hlimit, Nat.le_trans hlong hstreak⟩)
  · exact Or.inr (Or.inr ⟨hnear, hlimit, Nat.le_trans hlong hstreak⟩)

/-- No limit is so long and no streak so short that an object at rest keeps to it. -/
structure RiskSettings.NeedsMotion (settings : RiskSettings) : Prop where
  warn : settings.pttcWarn < neverCollides ∨
    0 < settings.closingRateMin ∧ 0 < settings.streakWarn
  caution : settings.pttcCaution < neverCollides ∨
    0 < settings.closingRateMin ∧ 0 < settings.streakCaution

theorem float_not_le_of_lt {a b : Float} (hlt : a < b) : ¬b ≤ a := by
  intro hle
  obtain ⟨-, -, hself⟩ := lt_iff_value.mp (float_lt_of_lt_of_le hlt hle)
  exact lt_irrefl _ hself

theorem countP_approachesInBand_eq_zero {life : List Sighting}
    (hnone : ∀ s ∈ life, ¬s.metrics.approaching) :
    (life.countP fun s => s.ApproachesInBand) = 0 := by
  rw [List.countP_eq_zero]
  intro s hs happroaches
  exact hnone s hs (of_decide_eq_true happroaches).1

/-- Where the limits are shorter than a time without collision, or nothing has approached for a
streak, only a box that fills the frame raises the level. -/
theorem RaisesAtRest.fillsFrame_of_not_approaching (hraises : RaisesAtRest settings earlier t)
    (hwarn : settings.pttcWarn < neverCollides ∨
      (∀ s ∈ earlier ++ [t], ¬s.metrics.approaching) ∧ 0 < settings.streakWarn)
    (hcaution : settings.pttcCaution < neverCollides ∨
      (∀ s ∈ earlier ++ [t], ¬s.metrics.approaching) ∧ 0 < settings.streakCaution) :
    FillsFrame t.metrics := by
  rcases hraises with hfills | ⟨-, hlimit, hstreak⟩ | ⟨-, hlimit, hstreak⟩
  · exact hfills
  · rcases hwarn with hshort | ⟨hnone, hlong⟩
    · exact absurd hlimit (float_not_le_of_lt hshort)
    · rw [countP_approachesInBand_eq_zero hnone] at hstreak
      omega
  · rcases hcaution with hshort | ⟨hnone, hlong⟩
    · exact absurd hlimit (float_not_le_of_lt hshort)
    · rw [countP_approachesInBand_eq_zero hnone] at hstreak
      omega

theorem RaisesAtRest.fillsFrame (hraises : RaisesAtRest settings earlier t)
    (hmotion : settings.NeedsMotion)
    (hstill : ∀ s ∈ earlier ++ [t], StandsStill settings s.metrics) :
    FillsFrame t.metrics := by
  have hnone (hrate : 0 < settings.closingRateMin) :
      ∀ s ∈ earlier ++ [t], ¬s.metrics.approaching := by
    intro s hs happroaching
    exact float_not_le_of_lt hrate ((hstill s hs).approaching.mp happroaching)
  exact hraises.fillsFrame_of_not_approaching
    (hmotion.warn.imp_right fun h => ⟨hnone h.1, h.2⟩)
    (hmotion.caution.imp_right fun h => ⟨hnone h.1, h.2⟩)

/-! ## Runs -/

/-- What a run without a usable frame rate reports: no motion, and levels that nothing else than a
box that fills the frame raises, unless the settings let an object at rest do so. -/
structure ReportsNoMotion (settings : RiskSettings) (engine : RiskEngine)
    (frames : List EngineFrame) : Prop where
  standsStill : ∀ taken ∈ engine.run frames, ∀ m ∈ taken.report.metrics, StandsStill settings m
  reported : ∀ name id,
    (engine.sightingsOf (.object name id) frames).map (fun s => (s.detection, s.metrics)) =
      (engine.run frames).flatMap fun taken =>
        (taken.frame.detections.zip taken.report.metrics).filter fun pair =>
          pair.1.Shows name id
  raised : ∀ name id past s, past ++ [s] <+: engine.sightingsOf (.object name id) frames →
    s.metrics.level ≠ .safe →
      ∃ earlier t later, lifetime (past ++ [s]) = earlier ++ t :: later ∧
        RaisesAtRest settings earlier t
  raisedUntracked : ∀ taken ∈ engine.run frames, ∀ s ∈ taken.report.sightings,
    ¬s.detection.IsTracked → s.metrics.level ≠ .safe → RaisesAtRest settings [] s
  fillsFrame : settings.NeedsMotion → ∀ name id past s,
    past ++ [s] <+: engine.sightingsOf (.object name id) frames →
      s.metrics.level ≠ .safe → ∃ t ∈ lifetime (past ++ [s]), FillsFrame t.metrics
  fillsFrameUntracked : settings.NeedsMotion → ∀ taken ∈ engine.run frames,
    ∀ s ∈ taken.report.sightings, ¬s.detection.IsTracked →
      s.metrics.level ≠ .safe → FillsFrame s.metrics

theorem exists_taken_of_mem_sightingsOf
    {engine : RiskEngine} {frames : List EngineFrame} (hs : s ∈ engine.sightingsOf key frames) :
    ∃ taken ∈ engine.run frames, s ∈ taken.report.sightings := by
  obtain ⟨taken, hmem, hmemS⟩ := List.mem_flatMap.mp hs
  exact ⟨taken, hmem, List.mem_of_mem_filter hmemS⟩

theorem mem_of_mem_lifetime (hmem : t ∈ lifetime past) : t ∈ past := by
  obtain ⟨earlier, later, hsplit⟩ := List.append_of_mem hmem
  obtain ⟨before, rfl, -⟩ := exists_prefix_of_sinceLast hsplit
  simp

theorem History.exists_raisesAtRest
    (hall : History settings key all slot) (hfront : past ++ [s] <+: all)
    (hpttc : ∀ t ∈ all, t.metrics.pttc = neverCollides) (hlevel : s.metrics.level ≠ .safe) :
    ∃ earlier t later, lifetime (past ++ [s]) = earlier ++ t :: later ∧
      RaisesAtRest settings earlier t := by
  obtain ⟨earlier, t, later, hsplit, -, hsource⟩ := hall.exists_level_source hfront
  obtain ⟨track, hlife, htells⟩ := hall.exists_track_of_lifetime hfront hsplit
  have hmem : t ∈ lifetime (past ++ [s]) := by simp [hsplit]
  have hrest := hpttc t (hfront.subset (mem_of_mem_lifetime hmem))
  rw [← hsource] at hlevel
  exact ⟨earlier, t, later, hsplit, hlife.raisesAtRest htells hrest hlevel⟩

theorem History.exists_fillsFrame
    (hall : History settings key all slot) (hfront : past ++ [s] <+: all)
    (hstill : ∀ t ∈ all, StandsStill settings t.metrics) (hmotion : settings.NeedsMotion)
    (hlevel : s.metrics.level ≠ .safe) :
    ∃ t ∈ lifetime (past ++ [s]), FillsFrame t.metrics := by
  obtain ⟨earlier, t, later, hsplit, hraises⟩ :=
    hall.exists_raisesAtRest hfront (fun t ht => (hstill t ht).pttc) hlevel
  -- The streak is counted from the start of the lifetime, so all of it has to stand still.
  have hmem : ∀ u ∈ earlier ++ [t], u ∈ lifetime (past ++ [s]) := by
    intro u hu
    rw [hsplit, List.append_cons earlier]
    exact List.mem_append_left later hu
  refine ⟨t, hmem t (by simp), hraises.fillsFrame hmotion ?_⟩
  intro u hu
  exact hstill u (hfront.subset (mem_of_mem_lifetime (hmem u hu)))

theorem RaisesAtRest.of_metrics_eq (hraises : RaisesAtRest settings [] t)
    (hmetrics : s.metrics = t.metrics) : RaisesAtRest settings [] s := by
  have happroaches : s.ApproachesInBand ↔ t.ApproachesInBand := by
    rw [Sighting.ApproachesInBand, Sighting.ApproachesInBand, hmetrics]
  have hcount : (([] ++ [s] : List Sighting).countP fun s => s.ApproachesInBand) =
      ([] ++ [t] : List Sighting).countP fun s => s.ApproachesInBand := by
    simp [List.countP_singleton, happroaches]
  rw [RaisesAtRest, hcount, hmetrics]
  exact hraises

/-- An unrecognised object is assessed as one seen for the first time, so its level is that of its
own candidate. -/
theorem raisesAtRest_of_first {size : FrameSize}
    (hmetrics : s.metrics = firstMetrics settings size s.detection)
    (hpttc : s.metrics.pttc = neverCollides) (hlevel : s.metrics.level ≠ .safe) :
    RaisesAtRest settings [] s := by
  let first := slotSight settings ⟨size, 0, 0⟩ (.ofDetection 0 0 s.detection) none s.detection
  have hfirst : s.metrics = first.2.metrics := hmetrics
  have hcandidate : first.2.candidate = first.2.metrics.level :=
    (HysteresisGate.level_step_initial _ _).symm
  rw [hfirst] at hpttc hlevel
  rw [← hcandidate] at hlevel
  have hraises : RaisesAtRest settings [] first.2 :=
    (remembers_first settings _ _ _).raisesAtRest (tells_slotSight settings _ _ none _) hpttc hlevel
  exact hraises.of_metrics_eq hfirst

/-- Whatever else a stream without a usable frame rate holds, nothing on it moves, and an object at
rest raises its level only by filling the frame or by the leave of the settings. -/
theorem no_motion_at_unusable_rate
    {engine : RiskEngine} (hnew : RiskEngine.ofSettings settings = .ok engine)
    {frames : List EngineFrame} (hfps : ∀ f ∈ frames, UnusableRate f.context.fps) :
    ReportsNoMotion settings engine frames := by
  have hstill (taken : EngineStep) (hmem : taken ∈ engine.run frames) (s : Sighting)
      (hs : s ∈ taken.report.sightings) : StandsStill settings s.metrics :=
    RiskEngine.standsStill_of_mem_run hnew hfps hmem hs
  have hstillOf (name : String) (id : Int) :
      ∀ s ∈ engine.sightingsOf (.object name id) frames, StandsStill settings s.metrics := by
    intro s hs
    obtain ⟨taken, hmem, hmemS⟩ := exists_taken_of_mem_sightingsOf hs
    exact hstill taken hmem s hmemS
  have huntracked (taken : EngineStep) (hmem : taken ∈ engine.run frames) (s : Sighting)
      (hs : s ∈ taken.report.sightings) (htracked : ¬s.detection.IsTracked)
      (hlevel : s.metrics.level ≠ .safe) : RaisesAtRest settings [] s := by
    obtain ⟨-, rfl⟩ := RiskEngine.ofSettings_eq_ok_iff.mp hnew
    have hfirst :=
      RiskEngine.sighting_metrics_of_untracked TrackMap.allTracked_empty hmem hs htracked
    exact raisesAtRest_of_first hfirst (hstill taken hmem s hs).pttc hlevel
  constructor
  · intro taken hmem m hm
    obtain ⟨s, hs, rfl⟩ := List.mem_map.mp hm
    exact hstill taken hmem s hs
  · exact fun name id => engine.sightingsOf_reported name id frames
  · intro name id past s hfront hlevel
    obtain ⟨slot, hall⟩ := RiskEngine.exists_history hnew name id frames
    exact hall.exists_raisesAtRest hfront (fun t ht => (hstillOf name id t ht).pttc) hlevel
  · exact huntracked
  · intro hmotion name id past s hfront hlevel
    obtain ⟨slot, hall⟩ := RiskEngine.exists_history hnew name id frames
    exact hall.exists_fillsFrame hfront (hstillOf name id) hmotion hlevel
  · intro hmotion taken hmem s hs htracked hlevel
    have hlife : ∀ u ∈ [] ++ [s], StandsStill settings u.metrics := by
      simpa using hstill taken hmem s hs
    exact (huntracked taken hmem s hs htracked hlevel).fillsFrame hmotion hlife

/-- A person fills the frame while the stream has no timestamps, and is aside when the rate is no
number; the usual settings need motion for anything else. -/
theorem no_motion_at_unusable_rate_person :
    let ahead : Detection := ⟨1, 0, "Person", 1, ⟨260, 100, 380, 400⟩⟩
    let aside : Detection := ⟨1, 0, "Person", 1, ⟨20, 100, 60, 160⟩⟩
    let engine : RiskEngine := ⟨.default, .empty, 0⟩
    let frames : List EngineFrame :=
      [⟨⟨⟨640, 480⟩, 0, 0⟩, [ahead]⟩, ⟨⟨⟨640, 480⟩, 1, 0 / 0⟩, [aside]⟩]
    RiskEngine.ofSettings .default = .ok engine ∧
      (∀ f ∈ frames, UnusableRate f.context.fps) ∧ RiskSettings.default.NeedsMotion ∧
      ReportsNoMotion .default engine frames := by
  intro ahead aside engine frames
  have hnew : RiskEngine.ofSettings .default = .ok engine := RiskEngine.ofSettings_default
  have hfps : ∀ f ∈ frames, UnusableRate f.context.fps := by
    refine List.forall_mem_cons.mpr ⟨?_, List.forall_mem_singleton.mpr ?_⟩
    · exact Or.inr (Or.inr (by decide +kernel))
    · exact Or.inl (by decide +kernel)
  have hmotion : RiskSettings.default.NeedsMotion :=
    ⟨Or.inl (by decide +kernel), Or.inl (by decide +kernel)⟩
  exact ⟨hnew, hfps, hmotion, no_motion_at_unusable_rate hnew hfps⟩

/-- Without a usable frame rate nothing approaches, and only a box that fills the frame raises the
level of its object, whatever the settings. -/
def NeverApproachesAtUnusableRate : Prop :=
  ∀ (settings : RiskSettings) (engine : RiskEngine) (frames : List EngineFrame),
    RiskEngine.ofSettings settings = .ok engine →
      (∀ f ∈ frames, UnusableRate f.context.fps) →
        (∀ taken ∈ engine.run frames, ∀ m ∈ taken.report.metrics,
          m.closingRate = 0 ∧ m.approaching = false ∧ m.pttc = neverCollides) ∧
        ∀ name id past s, past ++ [s] <+: engine.sightingsOf (.object name id) frames →
          s.metrics.level ≠ .safe → ∃ t ∈ lifetime (past ++ [s]), FillsFrame t.metrics

def anyRateSettings : RiskSettings :=
  { RiskSettings.default with closingRateMin := 0 }

theorem anyRateSettings_check : anyRateSettings.check = .ok () := by
  have hdefault : RiskSettings.default.Admissible := RiskSettings.check_eq_ok_iff.mp
    (RiskEngine.ofSettings_eq_ok_iff.mp RiskEngine.ofSettings_default).1
  exact RiskSettings.check_eq_ok_iff.mpr { hdefault with closingRateMin := isAmount_zero }

theorem not_neverApproachesAtUnusableRate : ¬NeverApproachesAtUnusableRate := by
  intro hnever
  let engine : RiskEngine := ⟨anyRateSettings, .empty, 0⟩
  let frames : List EngineFrame :=
    [⟨⟨⟨640, 480⟩, 0, 0⟩, [⟨1, 0, "Person", 1, ⟨20, 100, 60, 160⟩⟩]⟩]
  have hnew : RiskEngine.ofSettings anyRateSettings = .ok engine :=
    RiskEngine.ofSettings_eq_ok_iff.mpr ⟨anyRateSettings_check, rfl⟩
  have hfps : ∀ f ∈ frames, UnusableRate f.context.fps :=
    List.forall_mem_singleton.mpr (Or.inr (Or.inr (by decide +kernel)))
  have hstill := (hnever anyRateSettings engine frames hnew hfps).1
  have happroaching : (engine.run frames).map (fun taken =>
      taken.report.metrics.map (·.approaching)) = [[true]] := by
    decide +kernel
  obtain ⟨taken, hmem, hone⟩ : ∃ taken ∈ engine.run frames,
      taken.report.metrics.map (·.approaching) = [true] :=
    List.mem_map.mp (happroaching ▸ List.mem_cons_self)
  obtain ⟨m, hm, htrue⟩ : ∃ m ∈ taken.report.metrics, m.approaching = true :=
    List.mem_map.mp (hone ▸ List.mem_cons_self)
  obtain ⟨-, hfalse, -⟩ := hstill taken hmem m hm
  rw [htrue] at hfalse
  contradiction

end ObstacleWatch
