import ObstacleWatch.Proofs.SteadyAverage

/-!
# Objects that do not move

A box that stays the same has the same proxy on every frame.  Its average moves by rounding alone,
so it takes a fall of the very first step, and then a fast stream, for the box to count as closing;
where the first step does not fall, no rate is reported at any frame rate.  Without closing, only a
box that fills the frame raises the level, unless the settings let an object at rest do so.
-/

namespace ObstacleWatch

variable {settings : RiskSettings} {engine : RiskEngine} {key : TrackKey} {slot : Option Track}
  {d : Detection} {size : FrameSize} {frames : List EngineFrame} {taken : EngineStep}
  {s : Sighting} {m : RiskMetrics}

/-! ## The same detection on every frame -/

/-- The edges of the box are finite. -/
def Detection.HasFiniteBox (d : Detection) : Prop :=
  ∀ x ∈ d.box.edges, x.isFinite = true

instance : DecidablePred Detection.HasFiniteBox :=
  fun d => inferInstanceAs (Decidable (∀ x ∈ d.box.edges, x.isFinite = true))

theorem Detection.HasFiniteBox.not_bottomAtMinusInfinity (hd : d.HasFiniteBox) :
    ¬d.BottomAtMinusInfinity := by
  rw [bottomAtMinusInfinity_iff]
  exact value_widen_ne_bot (hd d.box.bottom (by simp [Box.edges]))

/-- A detection is handed in unchanged on every frame of a stream of one frame size, and is the only
one of its key. -/
structure FedUnchanged (d : Detection) (size : FrameSize) (frames : List EngineFrame) : Prop where
  size_eq : ∀ f ∈ frames, f.context.size = size
  present : ∀ f ∈ frames, d ∈ f.detections
  alone : d.IsTracked → ∀ f ∈ frames,
    f.detections.countP (fun other => other.Shows d.className d.trackId) = 1

theorem Detection.IsTracked.shows (hd : d.IsTracked) : d.Shows d.className d.trackId :=
  ⟨hd, rfl, rfl⟩

theorem FedUnchanged.restrict_eq (hfed : FedUnchanged d size frames) (hd : d.IsTracked)
    {f : EngineFrame} (hf : f ∈ frames) :
    f.restrict (Detection.Shows d.className d.trackId) = ⟨f.context, [d]⟩ := by
  have hone := hfed.alone hd f hf
  rw [List.countP_eq_length_filter] at hone
  obtain ⟨other, hfilter⟩ := List.length_eq_one_iff.mp hone
  have hmem : d ∈ f.detections.filter fun other => other.Shows d.className d.trackId :=
    List.mem_filter.mpr ⟨hfed.present f hf, decide_eq_true hd.shows⟩
  rw [hfilter, List.mem_singleton] at hmem
  rw [EngineFrame.restrict, hfilter, hmem]

/-! ## The track of the detection -/

/-- What a slot holds has seen nothing but a constant proxy. -/
def IsSteadySlot (alpha x : Float) (slot : Option Track) : Prop :=
  ∀ t, slot = some t → ∃ n, t.motion.current = some (DistanceAverage.steady alpha x n)

/-- The closing rate is that of two averages of a constant proxy in a row, or of a first
sighting. -/
def IsSteadyRate (alpha x fps rate : Float) : Prop :=
  rate = 0 ∨ ∃ n, rate = DistanceAverage.closingRate fps (DistanceAverage.steady alpha x n)
    (DistanceAverage.steady alpha x (n + 1))

theorem isSteadySlot_slotSight (ctx : FrameContext)
    (hslot : IsSteadySlot settings.emaAlpha (BoxGeometry.measure settings ctx.size d).distance
      slot) :
    IsSteadySlot settings.emaAlpha (BoxGeometry.measure settings ctx.size d).distance
      (some (slotSight settings ctx key slot d).1) := by
  rintro t ht
  obtain rfl := Option.some.inj ht
  cases slot with
  | none => exact ⟨0, rfl⟩
  | some t =>
      obtain ⟨n, hn⟩ := hslot t rfl
      refine ⟨n + 1, ?_⟩
      rw [DistanceAverage.steady, ← hn]
      rfl

theorem isSteadyRate_slotSight (ctx : FrameContext)
    (hslot : IsSteadySlot settings.emaAlpha (BoxGeometry.measure settings ctx.size d).distance
      slot) :
    IsSteadyRate settings.emaAlpha (BoxGeometry.measure settings ctx.size d).distance ctx.fps
      (slotSight settings ctx key slot d).2.metrics.closingRate := by
  cases slot with
  | none => exact .inl rfl
  | some t =>
      obtain ⟨n, hn⟩ := hslot t rfl
      refine .inr ⟨n, ?_⟩
      have hrate : (slotSight settings ctx key (some t) d).2.metrics.closingRate =
          (t.motion.update (BoxGeometry.measure settings ctx.size d).distance settings.emaAlpha
            ctx.fps).2.closingRate := rfl
      rw [hrate, DistanceAverage.update, hn]
      rfl

theorem IsSteadySlot.slotReap {alpha x : Float} (hslot : IsSteadySlot alpha x slot)
    (settings : RiskSettings) (frame : Nat) :
    IsSteadySlot alpha x (slotReap settings frame slot) :=
  fun t ht => hslot t (Option.filter_eq_some_iff.mp ht).1

theorem slotStep_singleton (settings : RiskSettings) (key : TrackKey) (slot : Option Track)
    (ctx : FrameContext) (d : Detection) :
    slotStep settings key slot ⟨ctx, [d]⟩ =
      (slotReap settings ctx.index (some (slotSight settings ctx key slot d).1),
        [(slotSight settings ctx key slot d).2]) := by
  rfl

/-! ## Runs -/

/-- The engine has seen nothing of the detection's key but the detection. -/
def FollowsSteady (settings : RiskSettings) (size : FrameSize) (d : Detection) (e : RiskEngine) :
    Prop :=
  e.settings = settings ∧
    IsSteadySlot settings.emaAlpha (BoxGeometry.measure settings size d).distance
      (e.tracks.get? (.object d.className d.trackId))

/-- A frame with one detection of its key moves the slot of the key by that detection. -/
theorem step_of_alone (e : RiskEngine) {f : EngineFrame}
    (hf : f.restrict (Detection.Shows d.className d.trackId) = ⟨f.context, [d]⟩) :
    (e.step f).engine.tracks.get? (.object d.className d.trackId) =
        slotReap e.settings f.context.index
          (some (slotSight e.settings f.context (.object d.className d.trackId)
            (e.tracks.get? (.object d.className d.trackId)) d).1) ∧
      ((e.step f).report.sightings.filter fun s => s.key = .object d.className d.trackId) =
        [(slotSight e.settings f.context (.object d.className d.trackId)
          (e.tracks.get? (.object d.className d.trackId)) d).2] := by
  have hstep := step_project d.className d.trackId e f
  rw [hf, slotStep_singleton] at hstep
  exact ⟨congrArg Prod.fst hstep, congrArg Prod.snd hstep⟩

namespace FollowsSteady

variable {e : RiskEngine} {f : EngineFrame}

theorem step (he : FollowsSteady settings size d e) (hsize : f.context.size = size)
    (hf : f.restrict (Detection.Shows d.className d.trackId) = ⟨f.context, [d]⟩) :
    FollowsSteady settings size d (e.step f).engine := by
  obtain ⟨rfl, hslot⟩ := he
  subst hsize
  refine ⟨rfl, ?_⟩
  rw [(step_of_alone e hf).1]
  exact (isSteadySlot_slotSight f.context hslot).slotReap _ _

theorem isSteadyRate (he : FollowsSteady settings size d e) (hsize : f.context.size = size)
    (hf : f.restrict (Detection.Shows d.className d.trackId) = ⟨f.context, [d]⟩)
    (hs : s ∈ (e.step f).report.sightings) (hkey : s.key = .object d.className d.trackId) :
    IsSteadyRate settings.emaAlpha (BoxGeometry.measure settings size d).distance f.context.fps
      s.metrics.closingRate := by
  obtain ⟨rfl, hslot⟩ := he
  subst hsize
  have hmem : s ∈ (e.step f).report.sightings.filter fun s =>
      s.key = .object d.className d.trackId := List.mem_filter.mpr ⟨hs, decide_eq_true hkey⟩
  rw [(step_of_alone e hf).2, List.mem_singleton] at hmem
  rw [hmem]
  exact isSteadyRate_slotSight f.context hslot

end FollowsSteady

/-! ## Reports of one detection -/

/-- All metrics reported for a detection have a property, which may depend on the frame. -/
def EachReport (engine : RiskEngine) (frames : List EngineFrame) (d : Detection)
    (P : EngineStep → RiskMetrics → Prop) : Prop :=
  ∀ taken ∈ engine.run frames, ∀ m,
    (d, m) ∈ taken.frame.detections.zip taken.report.metrics → P taken m

theorem eachReport_iff {P : EngineStep → RiskMetrics → Prop} :
    EachReport engine frames d P ↔ ∀ taken ∈ engine.run frames, ∀ s ∈ taken.report.sightings,
      s.detection = d → P taken s.metrics := by
  constructor
  · rintro hP taken hmem s hs rfl
    refine hP taken hmem s.metrics ?_
    rw [RiskEngine.reported_of_mem_run hmem]
    exact List.mem_map_of_mem hs
  · intro hP taken hmem m hm
    rw [RiskEngine.reported_of_mem_run hmem] at hm
    obtain ⟨s, hs, heq⟩ := List.mem_map.mp hm
    obtain ⟨hdetection, rfl⟩ := Prod.mk.inj heq
    exact hP taken hmem s hs hdetection

theorem EachReport.mono {P Q : EngineStep → RiskMetrics → Prop}
    (hP : EachReport engine frames d P) (himp : ∀ taken ∈ engine.run frames, ∀ m, P taken m →
      Q taken m) : EachReport engine frames d Q :=
  fun taken hmem m hm => himp taken hmem m (hP taken hmem m hm)

/-- The sightings under the key of a detection that is alone there are its own. -/
theorem mem_sightingsOf_iff (hfed : FedUnchanged d size frames) (hd : d.IsTracked) :
    s ∈ engine.sightingsOf (.object d.className d.trackId) frames ↔
      ∃ taken ∈ engine.run frames, s ∈ taken.report.sightings ∧ s.detection = d := by
  rw [RiskEngine.sightingsOf, List.mem_flatMap]
  refine exists_congr fun taken => and_congr_right fun hmem => ?_
  rw [filter_key_eq d.className d.trackId hmem, List.mem_filter, decide_eq_true_eq]
  refine and_congr_right fun hs => ⟨fun hshows => ?_, fun heq => by rw [heq]; exact hd.shows⟩
  have hdetection : s.detection ∈
      (taken.frame.restrict (Detection.Shows d.className d.trackId)).detections := by
    refine List.mem_filter.mpr ⟨?_, decide_eq_true hshows⟩
    rw [← RiskEngine.detections_of_mem_run hmem]
    exact List.mem_map_of_mem hs
  rw [hfed.restrict_eq hd (RiskEngine.mem_frames_of_mem_run hmem)] at hdetection
  exact List.mem_singleton.mp hdetection

/-- The rate and the box decide about the approach. -/
structure IsMeasured (settings : RiskSettings) (size : FrameSize) (d : Detection)
    (m : RiskMetrics) : Prop where
  pttc : m.pttc = timeToCollision m.distance m.closingRate
  approaching : m.approaching = isApproaching settings m.closingRate
  fillsFrame : FillsFrame m ↔
    (BoxGeometry.measure settings size d).megaClose = true ∧
      (BoxGeometry.measure settings size d).inNearCenter = true

theorem timeToCollision_of_le {rate : Float} (hrate : rate ≤ leastClosingRate) (distance : Float) :
    timeToCollision distance rate = neverCollides := by
  rw [timeToCollision, if_neg fun hlt => float_not_le_of_lt hlt hrate]

section Run

variable (hnew : RiskEngine.ofSettings settings = .ok engine) (hfed : FedUnchanged d size frames)
include hnew hfed

theorem eachReport_isSteadyRate :
    EachReport engine frames d fun taken m =>
      IsSteadyRate settings.emaAlpha (BoxGeometry.measure settings size d).distance
        taken.frame.context.fps m.closingRate := by
  rw [eachReport_iff]
  intro taken hmem s hs hd
  obtain ⟨-, rfl⟩ := RiskEngine.ofSettings_eq_ok_iff.mp hnew
  have hframe := RiskEngine.mem_frames_of_mem_run hmem
  by_cases htracked : d.IsTracked
  · have hkeyed : s ∈ taken.report.sightings.filter fun s =>
        s.key = .object d.className d.trackId := by
      rw [filter_key_eq d.className d.trackId hmem]
      exact List.mem_filter.mpr ⟨hs, decide_eq_true (by rw [hd]; exact htracked.shows)⟩
    have hstart : FollowsSteady settings size d ⟨settings, .empty, 0⟩ :=
      ⟨rfl, fun t ht => by rw [TrackMap.get?_empty] at ht; contradiction⟩
    obtain ⟨before, hbefore, htaken⟩ := RiskEngine.exists_step_of_mem_run_frames
      (fun e f hf he => he.step (hfed.size_eq f hf) (hfed.restrict_eq htracked hf)) hstart hmem
    rw [htaken] at hs
    exact hbefore.isSteadyRate (hfed.size_eq _ hframe) (hfed.restrict_eq htracked hframe) hs
      (of_decide_eq_true (List.mem_filter.mp hkeyed).2)
  · rw [RiskEngine.sighting_metrics_of_untracked TrackMap.allTracked_empty hmem hs (hd ▸ htracked)]
    exact .inl rfl

theorem eachReport_isMeasured :
    EachReport engine frames d fun _ m => IsMeasured settings size d m := by
  rw [eachReport_iff]
  rintro taken hmem s hs rfl
  obtain ⟨key, slot, -, hsight⟩ := RiskEngine.exists_slot_of_mem_run hnew (P := fun _ => True)
    (fun _ _ _ _ _ => trivial) hmem hs
  rw [← hfed.size_eq _ (RiskEngine.mem_frames_of_mem_run hmem)]
  have hmetrics := congrArg Sighting.metrics hsight
  rw [hmetrics]
  exact ⟨rfl, rfl, Iff.rfl⟩

/-! ## Levels -/

section Level

variable (hpttc : EachReport engine frames d fun _ m => m.pttc = neverCollides)
  (hwarn : settings.pttcWarn < neverCollides ∨
    EachReport engine frames d (fun _ m => ¬m.approaching) ∧ 0 < settings.streakWarn)
  (hcaution : settings.pttcCaution < neverCollides ∨
    EachReport engine frames d (fun _ m => ¬m.approaching) ∧ 0 < settings.streakCaution)
include hpttc hwarn hcaution

theorem exists_fillsFrame_of_tracked (hd : d.IsTracked)
    (hs : s ∈ engine.sightingsOf (.object d.className d.trackId) frames)
    (hlevel : s.metrics.level ≠ .safe) :
    ∃ t ∈ engine.sightingsOf (.object d.className d.trackId) frames, FillsFrame t.metrics := by
  have hevery {P : RiskMetrics → Prop} (hP : EachReport engine frames d fun _ m => P m) :
      ∀ t ∈ engine.sightingsOf (.object d.className d.trackId) frames, P t.metrics := by
    intro t ht
    obtain ⟨taken, hmem, hsighted, hdetection⟩ := (mem_sightingsOf_iff hfed hd).mp ht
    exact eachReport_iff.mp hP taken hmem t hsighted hdetection
  obtain ⟨last, hall⟩ := RiskEngine.exists_history hnew d.className d.trackId frames
  obtain ⟨past, rest, hsplit⟩ := List.append_of_mem hs
  have hfront : past ++ [s] <+: engine.sightingsOf (.object d.className d.trackId) frames :=
    ⟨rest, by rw [hsplit, List.append_assoc, List.singleton_append]⟩
  obtain ⟨earlier, t, later, hlife, hraises⟩ :=
    hall.exists_raisesAtRest hfront (hevery hpttc) hlevel
  -- The streak is counted from the start of the lifetime, so all of it has to be calm.
  have hmem : ∀ u ∈ earlier ++ [t],
      u ∈ engine.sightingsOf (.object d.className d.trackId) frames := by
    intro u hu
    refine hfront.subset (mem_of_mem_lifetime ?_)
    rw [hlife, List.append_cons earlier]
    exact List.mem_append_left later hu
  refine ⟨t, hmem t (by simp), hraises.fillsFrame_of_not_approaching ?_ ?_⟩
  · exact hwarn.imp_right fun h => ⟨fun u hu => hevery h.1 u (hmem u hu), h.2⟩
  · exact hcaution.imp_right fun h => ⟨fun u hu => hevery h.1 u (hmem u hu), h.2⟩

omit hfed in
theorem fillsFrame_of_untracked (hd : ¬d.IsTracked) (hmem : taken ∈ engine.run frames)
    (hs : s ∈ taken.report.sightings) (hdetection : s.detection = d)
    (hlevel : s.metrics.level ≠ .safe) : FillsFrame s.metrics := by
  have hfirst : s.metrics = firstMetrics settings taken.frame.context.size s.detection := by
    obtain ⟨-, rfl⟩ := RiskEngine.ofSettings_eq_ok_iff.mp hnew
    exact RiskEngine.sighting_metrics_of_untracked TrackMap.allTracked_empty hmem hs
      (hdetection ▸ hd)
  have hown {P : RiskMetrics → Prop} (hP : EachReport engine frames d fun _ m => P m) :
      ∀ u ∈ [] ++ [s], P u.metrics := by
    simpa using eachReport_iff.mp hP taken hmem s hs hdetection
  have hraises := raisesAtRest_of_first hfirst (hown hpttc s (by simp)) hlevel
  refine hraises.fillsFrame_of_not_approaching ?_ ?_
  · exact hwarn.imp_right fun h => ⟨hown h.1, h.2⟩
  · exact hcaution.imp_right fun h => ⟨hown h.1, h.2⟩

/-- A detection that never closes raises the level only by filling the frame. -/
theorem eachReport_fillsFrame :
    EachReport engine frames d fun _ m => m.level ≠ .safe → FillsFrame m := by
  rw [eachReport_iff]
  intro taken hmem s hs hdetection hlevel
  by_cases hd : d.IsTracked
  · have hmeasured := eachReport_iff.mp (eachReport_isMeasured hnew hfed)
    have hkeyed := (mem_sightingsOf_iff hfed hd).mpr ⟨taken, hmem, hs, hdetection⟩
    obtain ⟨t, ht, hfills⟩ :=
      exists_fillsFrame_of_tracked hnew hfed hpttc hwarn hcaution hd hkeyed hlevel
    obtain ⟨taken', hmem', ht', hdetection'⟩ := (mem_sightingsOf_iff hfed hd).mp ht
    -- The box of the sighting that fills the frame is the box of all of them.
    rw [(hmeasured taken' hmem' t ht' hdetection').fillsFrame] at hfills
    rwa [(hmeasured taken hmem s hs hdetection).fillsFrame]
  · exact fillsFrame_of_untracked hnew hpttc hwarn hcaution hd hmem hs hdetection hlevel

end Level

theorem eachReport_pttc
    (hrate : EachReport engine frames d fun _ m => m.closingRate ≤ leastClosingRate) :
    EachReport engine frames d fun _ m => m.pttc = neverCollides := by
  intro taken hmem m hm
  rw [(eachReport_isMeasured hnew hfed taken hmem m hm).pttc]
  exact timeToCollision_of_le (hrate taken hmem m hm) _

/-- At rates up to a bound the level is safe, unless the settings take less than this bound for
motion. -/
theorem eachReport_level {bound : Float} (hbound : bound ≤ leastClosingRate)
    (hrate : EachReport engine frames d fun _ m => m.closingRate ≤ bound)
    (hwarn : settings.pttcWarn < neverCollides ∨
      bound < settings.closingRateMin ∧ 0 < settings.streakWarn)
    (hcaution : settings.pttcCaution < neverCollides ∨
      bound < settings.closingRateMin ∧ 0 < settings.streakCaution) :
    EachReport engine frames d fun _ m => m.level ≠ .safe → FillsFrame m := by
  have hpttc := eachReport_pttc hnew hfed fun taken hmem m hm =>
    float_le_trans (hrate taken hmem m hm) hbound
  have hnone (hmin : bound < settings.closingRateMin) :
      EachReport engine frames d fun _ m => ¬m.approaching := by
    intro taken hmem m hm happroaching
    rw [(eachReport_isMeasured hnew hfed taken hmem m hm).approaching] at happroaching
    have hreach := float_le_trans (of_decide_eq_true happroaching) (hrate taken hmem m hm)
    exact float_not_le_of_lt hmin hreach
  refine eachReport_fillsFrame hnew hfed hpttc ?_ ?_
  · exact hwarn.imp_right fun h => ⟨hnone h.1, h.2⟩
  · exact hcaution.imp_right fun h => ⟨hnone h.1, h.2⟩

end Run

/-! ## Static objects -/

/-- Only an object that closes can raise the level, unless its box fills the frame: the limits are
shorter than a time without collision, or a streak takes rates that count as closing. -/
structure RiskSettings.NeedsClosing (settings : RiskSettings) : Prop where
  warn : settings.pttcWarn < neverCollides ∨
    leastClosingRate < settings.closingRateMin ∧ 0 < settings.streakWarn
  caution : settings.pttcCaution < neverCollides ∨
    leastClosingRate < settings.closingRateMin ∧ 0 < settings.streakCaution

/-- The object is reported as not closing. -/
structure NotClosing (m : RiskMetrics) : Prop where
  pttc : m.pttc = neverCollides
  isClosing : m.isClosing = false

theorem notClosing_of_pttc (hpttc : m.pttc = neverCollides) : NotClosing m := by
  have hself : ¬neverCollides < neverCollides := by decide +kernel
  refine ⟨hpttc, ?_⟩
  rw [RiskMetrics.isClosing, hpttc]
  exact decide_eq_false hself

/-- What is reported of a detection that stays the same: no rate at all where the average does not
slip below the proxy, and no closing where it does and the stream is slow.  Unless the settings let
an object at rest raise the level, only a box that fills the frame does. -/
structure ReportsStatic (settings : RiskSettings) (size : FrameSize) (d : Detection)
    (engine : RiskEngine) (frames : List EngineFrame) : Prop where
  reported : ∀ taken ∈ engine.run frames,
    ∃ m, (d, m) ∈ taken.frame.detections.zip taken.report.metrics
  still : ¬DistanceAverage.SlipsBelow settings.emaAlpha
      (BoxGeometry.measure settings size d).distance →
    EachReport engine frames d fun _ m => m.closingRate = 0 ∧ NotClosing m
  slow : EachReport engine frames d fun taken m =>
    DistanceAverage.HidesRounding (BoxGeometry.measure settings size d).distance
        taken.frame.context.fps →
      0 ≤ m.closingRate ∧ m.closingRate ≤ leastClosingRate ∧ NotClosing m
  levelStill : ¬DistanceAverage.SlipsBelow settings.emaAlpha
      (BoxGeometry.measure settings size d).distance → settings.NeedsMotion →
    EachReport engine frames d fun _ m => m.level ≠ .safe → FillsFrame m
  levelSlow : (∀ f ∈ frames, DistanceAverage.HidesRounding
      (BoxGeometry.measure settings size d).distance f.context.fps) → settings.NeedsClosing →
    EachReport engine frames d fun _ m => m.level ≠ .safe → FillsFrame m

section Rates

variable {alpha x fps rate : Float} (hrate : IsSteadyRate alpha x fps rate)
include hrate

theorem IsSteadyRate.nonneg : 0 ≤ rate := by
  rcases hrate with rfl | ⟨n, rfl⟩
  · exact isAmount_zero.2
  · exact (DistanceAverage.closingRate_isAmount _ _ _).2

theorem IsSteadyRate.eq_zero (halpha : IsShare alpha) (hx : IsWithin proxyBound x)
    (hkeeps : ¬DistanceAverage.SlipsBelow alpha x) : rate = 0 := by
  rcases hrate with hzero | ⟨n, rfl⟩
  · exact hzero
  · exact DistanceAverage.closingRate_steady halpha hx hkeeps fps n

theorem IsSteadyRate.le_leastClosingRate (halpha : IsShare alpha) (hx : IsWithin proxyBound x)
    (hhides : DistanceAverage.HidesRounding x fps) : rate ≤ leastClosingRate := by
  rcases hrate with rfl | ⟨n, rfl⟩
  · exact by decide +kernel
  · exact DistanceAverage.closingRate_steady_le halpha hx hhides n

end Rates

theorem static_object_not_closing (hnew : RiskEngine.ofSettings settings = .ok engine)
    (hd : d.HasFiniteBox) (hfed : FedUnchanged d size frames) :
    ReportsStatic settings size d engine frames := by
  have halpha : IsShare settings.emaAlpha :=
    (RiskSettings.check_eq_ok_iff.mp (RiskEngine.ofSettings_eq_ok_iff.mp hnew).1).emaAlpha
  have hx := BoxGeometry.isWithin_distance settings size hd.not_bottomAtMinusInfinity
  have hsteady := eachReport_isSteadyRate hnew hfed
  have hzero (hkeeps : ¬DistanceAverage.SlipsBelow settings.emaAlpha
      (BoxGeometry.measure settings size d).distance) :
      EachReport engine frames d fun _ m => m.closingRate = 0 :=
    hsteady.mono fun _ _ _ hrate => hrate.eq_zero halpha hx hkeeps
  have hleast : (0 : Float) ≤ leastClosingRate := by decide +kernel
  constructor
  case reported =>
    intro taken hmem
    have hpresent := hfed.present _ (RiskEngine.mem_frames_of_mem_run hmem)
    rw [← RiskEngine.detections_of_mem_run hmem] at hpresent
    obtain ⟨s, hs, rfl⟩ := List.mem_map.mp hpresent
    rw [RiskEngine.reported_of_mem_run hmem]
    exact ⟨s.metrics, List.mem_map_of_mem hs⟩
  case still =>
    intro hkeeps taken hmem m hm
    have hrate := hzero hkeeps taken hmem m hm
    have hmeasured := eachReport_isMeasured hnew hfed taken hmem m hm
    refine ⟨hrate, notClosing_of_pttc ?_⟩
    rw [hmeasured.pttc, hrate, timeToCollision_zero]
  case slow =>
    intro taken hmem m hm hhides
    have hrate := (hsteady taken hmem m hm).le_leastClosingRate halpha hx hhides
    have hmeasured := eachReport_isMeasured hnew hfed taken hmem m hm
    refine ⟨(hsteady taken hmem m hm).nonneg, hrate, notClosing_of_pttc ?_⟩
    rw [hmeasured.pttc, timeToCollision_of_le hrate]
  case levelStill =>
    intro hkeeps hmotion
    refine eachReport_level hnew hfed hleast ?_ hmotion.warn hmotion.caution
    intro taken hmem m hm
    rw [hzero hkeeps taken hmem m hm]
    exact isAmount_zero.2
  case levelSlow =>
    intro hhides hclosing
    refine eachReport_level hnew hfed (float_le_refl rfl) ?_ hclosing.warn hclosing.caution
    intro taken hmem m hm
    exact (hsteady taken hmem m hm).le_leastClosingRate halpha hx
      (hhides _ (RiskEngine.mem_frames_of_mem_run hmem))

/-- A stream that shows nothing but one detection, at one frame rate. -/
def showsOnly (d : Detection) (size : FrameSize) (fps : Float) (count : Nat) : List EngineFrame :=
  (List.range count).map fun i => ⟨⟨size, i, fps⟩, [d]⟩

theorem fedUnchanged_showsOnly (d : Detection) (size : FrameSize) (fps : Float) (count : Nat) :
    FedUnchanged d size (showsOnly d size fps count) := by
  constructor
  all_goals simp only [showsOnly, List.forall_mem_map]
  · simp
  · simp
  · intro hd i _
    simpa using hd.shows

/-- The average of this box slips below its proxy. -/
def slippingPerson : Detection :=
  ⟨1, 0, "Person", 1, ⟨300, 160, 320, 200⟩⟩

theorem static_object_not_closing_slippingPerson :
    let engine : RiskEngine := ⟨.default, .empty, 0⟩
    let frames := showsOnly slippingPerson ⟨640, 480⟩ 30 2
    let proxy := (BoxGeometry.measure .default ⟨640, 480⟩ slippingPerson).distance
    RiskEngine.ofSettings .default = .ok engine ∧ slippingPerson.HasFiniteBox ∧
      FedUnchanged slippingPerson ⟨640, 480⟩ frames ∧
      DistanceAverage.SlipsBelow RiskSettings.default.emaAlpha proxy ∧
      (∀ f ∈ frames, DistanceAverage.HidesRounding proxy f.context.fps) ∧
      RiskSettings.default.NeedsClosing ∧
      ReportsStatic .default ⟨640, 480⟩ slippingPerson engine frames := by
  intro engine frames proxy
  have hnew : RiskEngine.ofSettings .default = .ok engine := RiskEngine.ofSettings_default
  have hfinite : slippingPerson.HasFiniteBox := by decide +kernel
  have hfed : FedUnchanged slippingPerson ⟨640, 480⟩ frames := fedUnchanged_showsOnly ..
  have hslips : DistanceAverage.SlipsBelow RiskSettings.default.emaAlpha proxy := by decide +kernel
  have hslow : DistanceAverage.HidesRounding proxy 30 := Or.inr (by decide +kernel)
  have hhides : ∀ f ∈ frames, DistanceAverage.HidesRounding proxy f.context.fps :=
    List.forall_mem_map.mpr fun _ _ => hslow
  have hclosing : RiskSettings.default.NeedsClosing :=
    ⟨Or.inl (by decide +kernel), Or.inl (by decide +kernel)⟩
  exact ⟨hnew, hfinite, hfed, hslips, hhides, hclosing,
    static_object_not_closing hnew hfinite hfed⟩

/-- The frames are numbered in a row and come at one rate. -/
structure IsSteadyStream (fps : Float) (frames : List EngineFrame) : Prop where
  fps_eq : ∀ f ∈ frames, f.context.fps = fps
  numbered : ∃ start, frames.map (·.context.index) = List.range' start frames.length

/-- A property of the metrics of every detection that stays the same in a steady stream, whatever
the settings and the frame rate are. -/
def HoldsOfStatic (P : RiskMetrics → Prop) : Prop :=
  ∀ (settings : RiskSettings) (engine : RiskEngine) (size : FrameSize) (d : Detection)
    (fps : Float) (frames : List EngineFrame), RiskEngine.ofSettings settings = .ok engine →
      d.HasFiniteBox → IsSteadyStream fps frames → FedUnchanged d size frames →
      EachReport engine frames d fun _ m => P m

theorem isSteadyStream_showsOnly (d : Detection) (size : FrameSize) (fps : Float) (count : Nat) :
    IsSteadyStream fps (showsOnly d size fps count) := by
  constructor
  · exact List.forall_mem_map.mpr fun _ _ => rfl
  · refine ⟨0, ?_⟩
    simp [showsOnly, List.range_eq_range', Function.comp_def]

theorem HoldsOfStatic.of_showsOnly {P : RiskMetrics → Prop} (hP : HoldsOfStatic P)
    (hnew : RiskEngine.ofSettings settings = .ok engine) (hd : d.HasFiniteBox)
    (size : FrameSize) (fps : Float) (count : Nat) :
    ∀ taken ∈ engine.run (showsOnly d size fps count), ∀ m ∈ taken.report.metrics, P m := by
  intro taken hmem m hm
  refine hP settings engine size d fps _ hnew hd (isSteadyStream_showsOnly ..)
    (fedUnchanged_showsOnly ..) taken hmem m ?_
  obtain ⟨i, -, hframe⟩ := List.mem_map.mp (RiskEngine.mem_frames_of_mem_run hmem)
  obtain ⟨s, hs, rfl⟩ := List.mem_map.mp hm
  have hdetection : s.detection ∈ taken.frame.detections := by
    rw [← RiskEngine.detections_of_mem_run hmem]
    exact List.mem_map_of_mem hs
  rw [← hframe, List.mem_singleton] at hdetection
  rw [RiskEngine.reported_of_mem_run hmem, ← hdetection]
  exact List.mem_map_of_mem (f := fun s => (s.detection, s.metrics)) hs

/-- Settings under which an object that never collides can warn. -/
def anyTimeSettings : RiskSettings :=
  { RiskSettings.default with pttcWarn := 1e9, streakWarn := 0, streakCaution := 0 }

theorem anyTimeSettings_check : anyTimeSettings.check = .ok () := by
  have hdefault : RiskSettings.default.Admissible := RiskSettings.check_eq_ok_iff.mp
    (RiskEngine.ofSettings_eq_ok_iff.mp RiskEngine.ofSettings_default).1
  exact RiskSettings.check_eq_ok_iff.mpr
    { hdefault with pttcWarn := by decide +kernel, streaks := le_rfl }

/-- Without the conditions on the frame rate and the settings none of it holds: at thirty frames a
second the average slips into a rate, at a billion this rate counts as closing, and settings may
let an object that never collides warn. -/
theorem not_holdsOfStatic :
    ¬HoldsOfStatic (fun m => m.closingRate = 0) ∧
      ¬HoldsOfStatic (fun m => m.pttc = neverCollides) ∧
      ¬HoldsOfStatic (fun m => m.isClosing = false) ∧
      ¬HoldsOfStatic (fun m => m.level ≠ .safe → FillsFrame m) := by
  have hfinite : slippingPerson.HasFiniteBox := by decide +kernel
  have hdefault := RiskEngine.ofSettings_default
  have hany : RiskEngine.ofSettings anyTimeSettings = .ok ⟨anyTimeSettings, .empty, 0⟩ :=
    RiskEngine.ofSettings_eq_ok_iff.mpr ⟨anyTimeSettings_check, rfl⟩
  refine ⟨fun hrate => ?_, fun hpttc => ?_, fun hclosing => ?_, fun hlevel => ?_⟩
  · have hzero := hrate.of_showsOnly hdefault hfinite ⟨640, 480⟩ 30 2
    revert hzero
    decide +kernel
  · have hnever := hpttc.of_showsOnly hdefault hfinite ⟨640, 480⟩ 1e9 2
    revert hnever
    decide +kernel
  · have hnone := hclosing.of_showsOnly hdefault hfinite ⟨640, 480⟩ 1e9 2
    revert hnone
    decide +kernel
  · have hcalm := hlevel.of_showsOnly hany hfinite ⟨640, 480⟩ 30 2
    revert hcalm
    decide +kernel

end ObstacleWatch
