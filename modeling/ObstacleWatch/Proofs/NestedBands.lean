import ObstacleWatch.Proofs.EdgeRange
import ObstacleWatch.Proofs.ReportedLevel
import ObstacleWatch.Proofs.SoundMetrics
import ObstacleWatch.Proofs.StreakWalk
import ObstacleWatch.Proofs.TrackCensus

/-!
# Nested bands

What lies straight ahead also lies roughly ahead.  The edges of the two bands are computed apart and
with rounding, but every step on the way keeps the order of the two ratios: the wider band starts no
later, and so it ends no earlier.  A centre that is not a number lies in neither.  The narrow band
therefore never matters where both are asked for: a streak grows on the detections that approach
roughly ahead, and every candidate for a warning is roughly ahead.
-/

namespace ObstacleWatch

/-! ## The bands of a frame -/

/-- Where the middle `ratio` of a frame starts; it ends as far from the other side. -/
def bandEdge (frameWidth ratio : Float) : Float :=
  (1 - ratio) * 0.5 * frameWidth

section Bands

variable {center frameWidth ratio narrow wide bound : Float}

theorem inBand_eq_true_iff :
    inBand center frameWidth ratio = true ↔
      bandEdge frameWidth ratio ≤ center ∧ center ≤ frameWidth - bandEdge frameWidth ratio := by
  simp [inBand, bandEdge]

theorem isWithin_rest (hratio : IsShare ratio) : IsWithin 1 (1 - ratio) :=
  ⟨hratio.rest_nonneg, float_sub_le_self rfl (float_le_of_lt hratio.1), rfl⟩

theorem isWithin_half : IsWithin 0.5 0.5 :=
  isWithin_self (by decide +kernel) (by decide +kernel)

theorem isWithin_margin (hratio : IsShare ratio) : IsWithin 1 ((1 - ratio) * 0.5) :=
  (isWithin_rest hratio).mul isWithin_half (by decide +kernel) rfl

/-- The wider band starts no later. -/
theorem bandEdge_le_bandEdge (hnarrow : IsShare narrow) (hwide : IsShare wide)
    (hle : narrow ≤ wide) (hwidth : IsWithin bound frameWidth) :
    bandEdge frameWidth wide ≤ bandEdge frameWidth narrow := by
  have hrest : 1 - wide ≤ 1 - narrow :=
    float_sub_le_sub rfl rfl (float_le_refl isNumber_one) hle
  have hmargin : (1 - wide) * 0.5 ≤ (1 - narrow) * 0.5 :=
    float_mul_le_mul (isWithin_rest hwide).nonneg isWithin_half.nonneg hrest isWithin_half.le
      (isWithin_rest hnarrow).isFinite isWithin_half.isFinite
  exact float_mul_le_mul (isWithin_margin hwide).nonneg hwidth.nonneg hmargin
    (float_le_refl (.right_of_le hwidth.nonneg)) (isWithin_margin hnarrow).isFinite hwidth.isFinite

theorem inBand_of_inBand (hnarrow : IsShare narrow) (hwide : IsShare wide) (hle : narrow ≤ wide)
    (hwidth : IsWithin bound frameWidth) (hin : inBand center frameWidth narrow = true) :
    inBand center frameWidth wide = true := by
  have hstart := bandEdge_le_bandEdge hnarrow hwide hle hwidth
  have hend : frameWidth - bandEdge frameWidth narrow ≤ frameWidth - bandEdge frameWidth wide :=
    float_sub_le_sub hwidth.isFinite hwidth.isFinite
      (float_le_refl (.right_of_le hwidth.nonneg)) hstart
  rw [inBand_eq_true_iff] at hin ⊢
  exact ⟨float_le_trans hstart hin.1, float_le_trans hin.2 hend⟩

end Bands

variable {settings : RiskSettings} {key : TrackKey} {past : List Sighting} {s : Sighting}
  {t : Track}

theorem RiskSettings.Admissible.inNearCenter_of_inCenter (hs : settings.Admissible)
    (size : FrameSize) (d : Detection)
    (hcenter : (BoxGeometry.measure settings size d).inCenter = true) :
    (BoxGeometry.measure settings size d).inNearCenter = true :=
  inBand_of_inBand hs.centerBandRatio hs.nearCenterBandRatio hs.bands (isWithin_widthPx size)
    hcenter

/-! ## The streak that a sighting finds -/

/-- The streak of the last sighting under the same key; a sighting that starts a track finds no
streak. -/
def streakBefore (past : List Sighting) (s : Sighting) : Nat :=
  if s.isNew then 0 else ((past.filter fun u => u.key = s.key).getLast?.map (·.streak)).getD 0

theorem streakBefore_of_isNew (past : List Sighting) (hnew : s.isNew = true) :
    streakBefore past s = 0 :=
  if_pos hnew

theorem History.exists_last (hpast : History settings key past (some t)) :
    ∃ earlier s, past = earlier ++ [s] ∧ s.streak = t.streak := by
  cases hpast with
  | sight ctx d hearlier => exact ⟨_, _, rfl, rfl⟩

/-- The streak that a track has been left with is at most the number of its sightings. -/
theorem History.streak_le_length {slot : Option Track} (hpast : History settings key past slot)
    (frame : Nat) : (Track.found frame slot).streak ≤ past.length := by
  induction hpast generalizing frame with
  | start => exact Nat.zero_le _
  | forget => exact Nat.zero_le _
  | @sight past slot ctx d _ ih =>
      have hle := slotSight_streak_le settings ctx key slot d
      have hbefore := ih ctx.index
      have hfound : (Track.found frame (some (slotSight settings ctx key slot d).1)).streak =
          (slotSight settings ctx key slot d).1.streak := rfl
      rw [hfound, List.length_append, List.length_singleton]
      split at hle <;> omega

theorem TrackKey.exists_object_of_not_isEphemeral (hkey : key.isEphemeral = false) :
    ∃ name id, key = object name id := by
  obtain ⟨name, identity⟩ := key
  cases identity with
  | tracked id => exact ⟨name, id, rfl⟩
  | ephemeral frame position => contradiction

namespace RiskEngine

/-- All sightings of a run, in order. -/
def sightings (e : RiskEngine) (frames : List EngineFrame) : List Sighting :=
  (e.run frames).flatMap (·.report.sightings)

/-- The sightings of a run are its detections, each with the metrics reported for it. -/
theorem sightings_reported (e : RiskEngine) (frames : List EngineFrame) :
    (e.sightings frames).map (fun s => (s.detection, s.metrics)) =
      (e.run frames).flatMap fun taken => taken.frame.detections.zip taken.report.metrics := by
  rw [sightings, List.map_flatMap]
  apply List.flatMap_congr
  intro taken hmem
  exact (reported_of_mem_run hmem).symm

theorem filter_sightings (e : RiskEngine) (frames : List EngineFrame) (key : TrackKey) :
    (e.sightings frames).filter (fun s => s.key = key) = e.sightingsOf key frames :=
  List.filter_flatMap

/-- An object that is not recognised starts a track with every detection. -/
theorem isNew_of_isEphemeral {e : RiskEngine} (he : e.tracks.AllTracked)
    {frames : List EngineFrame} {taken : EngineStep} (hmem : taken ∈ e.run frames)
    (hs : s ∈ taken.report.sightings) (hkey : s.key.isEphemeral = true) : s.isNew = true := by
  obtain ⟨before, hbefore, htaken⟩ :=
    exists_step_of_mem_run (P := fun e : RiskEngine => e.tracks.AllTracked)
      (fun _ f he => allTracked_step he f) he hmem
  rw [htaken, step_sightings] at hs
  obtain ⟨place, hplace⟩ := key_of_mem_sightAll _ _ hs
  rw [hplace, isEphemeral_ofDetection] at hkey
  have huntracked : ¬s.detection.IsTracked := by simpa using hkey
  obtain ⟨i, hi⟩ := List.mem_iff_getElem?.mp hs
  by_contra hfound
  rcases (sightAll_found_iff hbefore hi).mp (by simpa using hfound) with
    ⟨-, -, d, -, hsame⟩ | ⟨htracked, -⟩
  · exact huntracked hsame.isTracked
  · exact huntracked htracked

theorem exists_found_of_ephemeral {engine : RiskEngine} (hnew : ofSettings settings = .ok engine)
    {frames : List EngineFrame} (hs : s ∈ engine.sightings frames)
    (hkey : s.key.isEphemeral = true) :
    ∃ ctx, s = (slotSight settings ctx s.key none s.detection).2 ∧ s.isNew = true := by
  obtain ⟨taken, hmem, hmemS⟩ := List.mem_flatMap.mp hs
  obtain ⟨key, slot, -, hsight⟩ := exists_slot_of_mem_run (P := fun _ => True) hnew
    (fun _ _ _ _ _ => trivial) hmem hmemS
  obtain rfl : s.key = key := congrArg Sighting.key hsight
  have hfirst : s.isNew = true :=
    isNew_of_isEphemeral (allTracked_of_ofSettings hnew) hmem hmemS hkey
  have hnone : s.isNew = slot.isNone := congrArg Sighting.isNew hsight
  obtain rfl : slot = none := Option.isNone_iff_eq_none.mp (hnone.symm.trans hfirst)
  exact ⟨taken.frame.context, hsight, hfirst⟩

theorem exists_history_of_prefix {engine : RiskEngine} (hnew : ofSettings settings = .ok engine)
    {frames : List EngineFrame} (hfront : past ++ [s] <+: engine.sightings frames)
    (hkey : s.key.isEphemeral = false) :
    ∃ ctx slot, s = (slotSight settings ctx s.key slot s.detection).2 ∧
      History settings s.key (past.filter fun u => u.key = s.key) slot := by
  have hown : past.filter (fun u => u.key = s.key) ++ [s] <+: engine.sightingsOf s.key frames := by
    have hfilter := hfront.filter fun u => u.key = s.key
    rw [List.filter_append, filter_sightings] at hfilter
    simpa using hfilter
  obtain ⟨name, id, hobject⟩ := TrackKey.exists_object_of_not_isEphemeral hkey
  obtain ⟨last, hall⟩ := exists_history hnew name id frames
  rw [← hobject] at hall
  obtain ⟨slot, ctx, d, hpast, hsight⟩ := hall.exists_sight_of_prefix hown
  obtain rfl : s.detection = d := congrArg Sighting.detection hsight
  exact ⟨ctx, slot, hsight, hpast⟩

/-- Every sighting of a run is assessed against a track with the streak that it finds, and this is
at most the number of earlier sightings. -/
theorem exists_found_of_prefix {engine : RiskEngine} (hnew : ofSettings settings = .ok engine)
    {frames : List EngineFrame} (hfront : past ++ [s] <+: engine.sightings frames) :
    ∃ ctx slot, s = (slotSight settings ctx s.key slot s.detection).2 ∧
      (Track.found ctx.index slot).streak = streakBefore past s ∧
      streakBefore past s ≤ past.length := by
  cases hkey : s.key.isEphemeral with
  | true =>
      obtain ⟨ctx, hsight, hfirst⟩ :=
        exists_found_of_ephemeral hnew (hfront.subset (by simp)) hkey
      have hzero := streakBefore_of_isNew past hfirst
      exact ⟨ctx, none, hsight, hzero.symm, hzero ▸ Nat.zero_le _⟩
  | false =>
      obtain ⟨ctx, slot, hsight, hpast⟩ := exists_history_of_prefix hnew hfront hkey
      have hisNew : s.isNew = slot.isNone := congrArg Sighting.isNew hsight
      have hfound : (Track.found ctx.index slot).streak = streakBefore past s := by
        cases slot with
        | none => exact (streakBefore_of_isNew past hisNew).symm
        | some t =>
            obtain ⟨earlier, u, hlast, hstreak⟩ := hpast.exists_last
            rw [streakBefore, hisNew, hlast, List.getLast?_concat]
            exact hstreak.symm
      refine ⟨ctx, slot, hsight, hfound, ?_⟩
      rw [← hfound]
      exact (hpast.streak_le_length ctx.index).trans (List.length_filter_le _ past)

end RiskEngine

/-! ## What the bands tell -/

/-- What a sighting tells after the earlier sightings of its run. -/
structure TellsBands (past : List Sighting) (s : Sighting) : Prop where
  nested : s.metrics.inCenter = true → s.metrics.inNearCenter = true
  streak : s.streak =
    if s.metrics.approaching = true ∧ s.metrics.inNearCenter = true then
      min (streakBefore past s + 1) greatestStreak
    else streakBefore past s - 1
  /-- The greatest streak cannot grow. -/
  grows_iff : streakBefore past s < s.streak ↔
    (s.metrics.approaching = true ∧ s.metrics.inNearCenter = true) ∧
      streakBefore past s < greatestStreak
  /-- So the greatest streak takes as many earlier sightings. -/
  reach : streakBefore past s ≤ past.length
  warn : s.candidate = .warn → s.metrics.inNearCenter = true

theorem rises_iff_of_nested (hnested : s.metrics.inCenter = true → s.metrics.inNearCenter = true) :
    s.streakStep.Rises ↔ s.metrics.approaching = true ∧ s.metrics.inNearCenter = true :=
  and_congr_right fun _ => or_iff_right_of_imp hnested

theorem candidate_inNearCenter {settings : RiskSettings} {v : ApproachView}
    (hnested : v.inCenter = true → v.inNearCenter = true)
    (hwarn : candidateLevel settings v = .warn) : v.inNearCenter = true := by
  rcases candidateLevel_eq_warn_iff.mp hwarn with ⟨-, hnear⟩ | ⟨hcenter, -⟩
  · exact hnear
  · exact hnested hcenter

theorem tellsBands_of_nested {ctx : FrameContext} {slot : Option Track}
    (hnested : s.metrics.inCenter = true → s.metrics.inNearCenter = true)
    (hsight : s = (slotSight settings ctx s.key slot s.detection).2)
    (hfound : (Track.found ctx.index slot).streak = streakBefore past s)
    (hreach : streakBefore past s ≤ past.length) : TellsBands past s := by
  have hstep : s.streak = s.streakStep.after (streakBefore past s) := by
    have hslot := slotSight_streak settings ctx s.key slot s.detection
    rwa [← hsight, hfound] at hslot
  have hcandidate : s.candidate = candidateLevel settings s.view := by
    have htells := tells_slotSight settings ctx s.key slot s.detection
    rw [← hsight] at htells
    exact htells.candidate
  have hrises := rises_iff_of_nested hnested
  refine ⟨hnested, ?_, ?_, hreach, fun hwarn => ?_⟩
  · rw [hstep]
    split
    · next hnear => exact StreakStep.after_of_rises (hrises.mpr hnear)
    · next hnear => exact StreakStep.after_of_not_rises fun hup => hnear (hrises.mp hup)
  · rw [hstep, ← hrises]
    exact StreakStep.lt_after_iff
  · exact candidate_inNearCenter hnested (hcandidate ▸ hwarn)

/-- Whatever the boxes and the frames, the centre band lies in the wider one, and what asks for
either of them asks for the wider one only. -/
theorem center_band_nested
    {engine : RiskEngine} (hnew : RiskEngine.ofSettings settings = .ok engine) :
    (∀ size d, (BoxGeometry.measure settings size d).inCenter = true →
        (BoxGeometry.measure settings size d).inNearCenter = true) ∧
      ∀ frames,
        ((engine.sightings frames).map fun s => (s.detection, s.metrics)) =
            ((engine.run frames).flatMap fun taken =>
              taken.frame.detections.zip taken.report.metrics) ∧
          ∀ past s, past ++ [s] <+: engine.sightings frames → TellsBands past s := by
  have hs : settings.Admissible :=
    RiskSettings.check_eq_ok_iff.mp (RiskEngine.ofSettings_eq_ok_iff.mp hnew).1
  refine ⟨hs.inNearCenter_of_inCenter, fun frames => ⟨engine.sightings_reported frames, ?_⟩⟩
  intro past s hfront
  obtain ⟨ctx, slot, hsight, hfound, hreach⟩ := RiskEngine.exists_found_of_prefix hnew hfront
  have hnested : s.metrics.inCenter = true → s.metrics.inNearCenter = true := by
    rw [hsight]
    exact hs.inNearCenter_of_inCenter ctx.size s.detection
  exact tellsBands_of_nested hnested hsight hfound hreach

/-- A person comes nearer beside the centre band, and the streak grows. -/
theorem center_band_nested_besideCenter :
    let far : Detection := ⟨1, 0, "Person", 1, ⟨120, 100, 160, 160⟩⟩
    let near : Detection := ⟨1, 0, "Person", 1, ⟨110, 100, 170, 260⟩⟩
    let engine : RiskEngine := ⟨.default, .empty, 0⟩
    let frames : List EngineFrame :=
      [⟨⟨⟨640, 480⟩, 0, 30⟩, [far]⟩, ⟨⟨⟨640, 480⟩, 1, 30⟩, [near]⟩]
    RiskEngine.ofSettings .default = .ok engine ∧
      ∃ first second, [first] ++ [second] <+: engine.sightings frames ∧
        second.metrics.inCenter = false ∧ second.metrics.inNearCenter = true ∧
        first.streak = 0 ∧ second.streak = 1 ∧ TellsBands [first] second := by
  intro far near engine frames
  have hnew : RiskEngine.ofSettings .default = .ok engine := RiskEngine.ofSettings_default
  have hfacts : (engine.sightings frames).map
      (fun s => (s.metrics.inCenter, s.metrics.inNearCenter, s.streak)) =
        [(false, true, 0), (false, true, 1)] := by
    decide +kernel
  have hlength := congrArg List.length hfacts
  rw [List.length_map] at hlength
  obtain ⟨first, second, hall⟩ := List.length_eq_two.mp hlength
  rw [hall] at hfacts
  simp only [List.map_cons, List.map_nil, List.cons.injEq, Prod.mk.injEq, and_true] at hfacts
  obtain ⟨⟨-, -, hstreak₁⟩, hcenter, hnear, hstreak₂⟩ := hfacts
  have hfront : [first] ++ [second] <+: engine.sightings frames := by
    rw [hall]
    exact List.prefix_rfl
  exact ⟨hnew, first, second, hfront, hcenter, hnear, hstreak₁, hstreak₂,
    ((center_band_nested hnew).2 frames).2 [first] second hfront⟩

end ObstacleWatch
