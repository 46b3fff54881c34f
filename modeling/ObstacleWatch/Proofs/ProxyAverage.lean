import ObstacleWatch.Proofs.ProxyRange
import ObstacleWatch.Proofs.SoundMetrics
import ObstacleWatch.Proofs.TrackLifetime
import ObstacleWatch.Proofs.UntrackedObjects

/-!
# The distance average of a poisoned track

A box with its lower edge at minus infinity has an infinite proxy, and the average takes it in.  An
average that is not finite never becomes finite again, because no number makes up for it in a
weighted sum, and a rate computed from it counts as zero.  So one such box takes the closing rate
from its track until the track is forgotten.  A track that has seen no such box keeps an average in
the range of the proxy, with room for the rounding of all its updates.
-/

namespace ObstacleWatch

variable {settings : RiskSettings} {ctx : FrameContext} {key : TrackKey} {slot : Option Track}
  {life past all : List Sighting} {s : Sighting} {t : Track} {d : Detection}

/-! ## One update of the average -/

/-- The bound of all averages of finite proxies. -/
def averageBound : Float := 1e60

namespace DistanceAverage

variable {a : DistanceAverage} {alpha sample average fps : Float}

theorem isFinite_of_smooth (hfinite : (smooth alpha sample (some average)).isFinite = true) :
    sample.isFinite = true ∧ average.isFinite = true := by
  obtain ⟨hnew, hold⟩ := isFinite_of_add hfinite
  exact ⟨(isFinite_of_mul hnew).2, (isFinite_of_mul hold).2⟩

theorem closingRate_eq_zero (fps before : Float) {after : Float} (hafter : after.isFinite = false) :
    closingRate fps before after = 0 := by
  have hrate : ¬((before - after) * fps).isFinite = true := by
    intro hfinite
    rw [(isFinite_of_sub (isFinite_of_mul hfinite).1).2] at hafter
    contradiction
  unfold closingRate
  split
  · exact if_neg hrate
  · rfl

theorem update_closingRate_eq_zero
    (hdistance : (a.update sample alpha fps).2.distance.isFinite = false) :
    (a.update sample alpha fps).2.closingRate = 0 := by
  obtain ⟨current, previous⟩ := a
  cases current with
  | none => rfl
  | some before => exact closingRate_eq_zero fps before hdistance

theorem isWithin_smooth (halpha : IsShare alpha) (hsample : IsWithin proxyBound sample)
    (haverage : IsWithin averageBound average) :
    IsWithin averageBound (smooth alpha sample (some average)) := by
  have hweight : 0 ≤ alpha := float_le_of_lt halpha.1
  -- The rest of a tiny weight may round to one, but then the new part is absorbed by the bound; any
  -- other weight takes more from the average than a sample gives back.
  by_cases hsmall : alpha < 2e-16
  · have hnew : IsWithin 1e25 (alpha * sample) :=
      IsWithin.mul ⟨hweight, float_le_of_lt hsmall, by decide +kernel⟩ hsample
        (by decide +kernel) (by decide +kernel)
    have hrest : 1 - alpha ≤ 1 - 0 := float_sub_le_sub rfl rfl (float_le_refl rfl) hweight
    have hold : IsWithin averageBound ((1 - alpha) * average) :=
      IsWithin.mul ⟨halpha.rest_nonneg, hrest, by decide +kernel⟩ haverage
        (by decide +kernel) haverage.finite
    exact hnew.add hold (by decide +kernel) haverage.finite
  · have hlarge : 2e-16 ≤ alpha := float_le_of_not_lt (.right_of_lt halpha.1) rfl hsmall
    have hnew : IsWithin proxyBound (alpha * sample) :=
      IsWithin.mul ⟨hweight, halpha.2, rfl⟩ hsample (by decide +kernel) hsample.finite
    have hrest : 1 - alpha ≤ 1 - 2e-16 := float_sub_le_sub rfl rfl (float_le_refl rfl) hlarge
    have hold : IsWithin ((1 - 2e-16) * averageBound) ((1 - alpha) * average) :=
      IsWithin.mul ⟨halpha.rest_nonneg, hrest, by decide +kernel⟩ haverage
        (by decide +kernel) (by decide +kernel)
    exact hnew.add hold (by decide +kernel) haverage.finite

end DistanceAverage

/-! ## The average over a lifetime -/

/-- One of the sightings has its lower edge at minus infinity. -/
def Poisoned (life : List Sighting) : Prop :=
  ∃ s ∈ life, s.detection.BottomAtMinusInfinity

theorem poisoned_singleton : Poisoned [s] ↔ s.detection.BottomAtMinusInfinity := by
  simp [Poisoned]

theorem poisoned_concat :
    Poisoned (life ++ [s]) ↔ Poisoned life ∨ s.detection.BottomAtMinusInfinity := by
  simp [Poisoned, or_and_right, exists_or]

/-- What an average can be after the sightings of a lifetime. -/
structure IsAverageOf (life : List Sighting) (x : Float) : Prop where
  lost : Poisoned life → x.isFinite = false
  kept : ¬Poisoned life → IsWithin averageBound x

theorem IsAverageOf.isAmount_iff {x : Float} (hx : IsAverageOf life x) :
    IsAmount x ↔ ¬Poisoned life := by
  constructor
  · rintro ⟨hfinite, -⟩ hpoisoned
    rw [hx.lost hpoisoned] at hfinite
    contradiction
  · intro hclean
    exact ⟨(hx.kept hclean).isFinite, (hx.kept hclean).nonneg⟩

theorem isAverageOf_first (settings : RiskSettings) (size : FrameSize) (s : Sighting) :
    IsAverageOf [s] (BoxGeometry.measure settings size s.detection).distance where
  lost hpoisoned := by
    have hbottom := poisoned_singleton.mp hpoisoned
    exact Bool.eq_false_of_not_eq_true fun hfinite =>
      (BoxGeometry.isFinite_distance_iff settings size).mp hfinite hbottom
  kept hclean := by
    have hproxy := BoxGeometry.isWithin_distance settings size (mt poisoned_singleton.mpr hclean)
    exact ⟨hproxy.nonneg, float_le_trans hproxy.le (by decide +kernel), by decide +kernel⟩

theorem IsAverageOf.next {x : Float} (hx : IsAverageOf life x) (hs : settings.Admissible)
    (size : FrameSize) (s : Sighting) :
    IsAverageOf (life ++ [s]) (DistanceAverage.smooth settings.emaAlpha
      (BoxGeometry.measure settings size s.detection).distance (some x)) where
  lost hpoisoned := by
    apply Bool.eq_false_of_not_eq_true
    intro hfinite
    obtain ⟨hproxy, haverage⟩ := DistanceAverage.isFinite_of_smooth hfinite
    rcases poisoned_concat.mp hpoisoned with hlife | hbottom
    · rw [hx.lost hlife] at haverage
      contradiction
    · exact (BoxGeometry.isFinite_distance_iff settings size).mp hproxy hbottom
  kept hclean := by
    obtain ⟨hlife, hbottom⟩ := not_or.mp (mt poisoned_concat.mpr hclean)
    exact DistanceAverage.isWithin_smooth hs.emaAlpha
      (BoxGeometry.isWithin_distance settings size hbottom) (hx.kept hlife)

/-! ## Tracks and their histories -/

theorem slotSight_current (settings : RiskSettings) (ctx : FrameContext) (key : TrackKey)
    (slot : Option Track) (d : Detection) :
    (slotSight settings ctx key slot d).1.motion.current =
      some (slotSight settings ctx key slot d).2.metrics.distance := by
  rfl

theorem slotSight_closingRate_eq_zero
    (hdistance : (slotSight settings ctx key slot d).2.metrics.distance.isFinite = false) :
    (slotSight settings ctx key slot d).2.metrics.closingRate = 0 :=
  DistanceAverage.update_closingRate_eq_zero hdistance

/-- What the first proxy has and a step of the average keeps holds of the average of a track. -/
theorem History.exists_average {P : List Sighting → Float → Prop}
    (hfirst : ∀ size s, P [s] (BoxGeometry.measure settings size s.detection).distance)
    (hnext : ∀ life x size s, P life x →
      P (life ++ [s]) (DistanceAverage.smooth settings.emaAlpha
        (BoxGeometry.measure settings size s.detection).distance (some x)))
    (hpast : History settings key past (some t)) :
    ∃ x, t.motion.current = some x ∧ P (lifetime past) x := by
  refine History.of_lifetime (P := fun life t => ∃ x, t.motion.current = some x ∧ P life x)
    ?_ ?_ hpast rfl
  · intro ctx d
    exact ⟨_, rfl, hfirst ctx.size (slotSight settings ctx key none d).2⟩
  · rintro life t ctx d ⟨x, hcurrent, hx⟩
    have hstep := hnext life x ctx.size (slotSight settings ctx key (some t) d).2 hx
    rw [← hcurrent] at hstep
    exact ⟨_, rfl, hstep⟩

/-- The proxy that a sighting reports is the average of its track. -/
theorem History.distance_of_average {P : List Sighting → Float → Prop}
    (haverage : ∀ past t, History settings key past (some t) →
      ∃ x, t.motion.current = some x ∧ P (lifetime past) x)
    (hall : History settings key all slot) (hfront : past ++ [s] <+: all) :
    P (lifetime (past ++ [s])) s.metrics.distance := by
  obtain ⟨found, ctx, d, hpast, rfl⟩ := hall.exists_sight_of_prefix hfront
  obtain ⟨x, hcurrent, hx⟩ := haverage _ _ (hpast.sight ctx d)
  rw [slotSight_current, Option.some.injEq] at hcurrent
  exact hcurrent ▸ hx

theorem History.isAverageOf (hs : settings.Admissible)
    (hpast : History settings key past (some t)) :
    ∃ x, t.motion.current = some x ∧ IsAverageOf (lifetime past) x :=
  hpast.exists_average (isAverageOf_first settings) fun _ _ size s hx => hx.next hs size s

/-- The proxy of a sighting is an average over the lifetime, and the rate of an average that is not
finite is zero. -/
theorem History.sighting_isAverageOf (hs : settings.Admissible)
    (hall : History settings key all slot) (hfront : past ++ [s] <+: all) :
    IsAverageOf (lifetime (past ++ [s])) s.metrics.distance ∧
      (Poisoned (lifetime (past ++ [s])) → s.metrics.closingRate = 0) := by
  have hx := hall.distance_of_average (fun _ _ hpast => hpast.isAverageOf hs) hfront
  refine ⟨hx, fun hpoisoned => ?_⟩
  obtain ⟨found, ctx, d, -, rfl⟩ := hall.exists_sight_of_prefix hfront
  exact slotSight_closingRate_eq_zero (hx.lost hpoisoned)

/-! ## Runs -/

/-- Every proxy that an engine computes, reports and stores is finite and not negative. -/
def ProxiesAreAmounts : Prop :=
  ∀ settings engine, RiskEngine.ofSettings settings = .ok engine →
    (∀ size d, IsAmount (BoxGeometry.measure settings size d).distance) ∧
      ∀ (frames : List EngineFrame), ∀ taken ∈ engine.run frames,
        (∀ m ∈ taken.report.metrics, IsAmount m.distance) ∧
          ∀ key t x, taken.engine.tracks.get? key = some t → t.motion.current = some x → IsAmount x

/-- When exactly the proxies along a run are finite and not negative. -/
structure ProxiesFollowLifetimes (settings : RiskSettings) (engine : RiskEngine)
    (frames : List EngineFrame) : Prop where
  measured : ∀ size d,
    IsAmount (BoxGeometry.measure settings size d).distance ↔ ¬d.BottomAtMinusInfinity
  untracked : ∀ taken ∈ engine.run frames,
    ∀ pair ∈ taken.frame.detections.zip taken.report.metrics, ¬pair.1.IsTracked →
      (IsAmount pair.2.distance ↔ ¬pair.1.BottomAtMinusInfinity)
  reported : ∀ name id past s, past ++ [s] <+: engine.sightingsOf (.object name id) frames →
    (IsAmount s.metrics.distance ↔ ¬Poisoned (lifetime (past ++ [s])))
  muted : ∀ name id past s, past ++ [s] <+: engine.sightingsOf (.object name id) frames →
    Poisoned (lifetime (past ++ [s])) → s.metrics.closingRate = 0
  stored : ∀ n taken, (engine.run frames)[n]? = some taken →
    ∀ key t, taken.engine.tracks.get? key = some t →
      ∃ x, t.motion.current = some x ∧
        (IsAmount x ↔ ¬Poisoned (lifetime (engine.sightingsOf key (frames.take (n + 1)))))

theorem isAmount_distance_iff (settings : RiskSettings) (size : FrameSize) (d : Detection) :
    IsAmount (BoxGeometry.measure settings size d).distance ↔ ¬d.BottomAtMinusInfinity := by
  have hnonneg := BoxGeometry.distance_nonneg settings size d
  rw [← BoxGeometry.isFinite_distance_iff settings size]
  exact ⟨fun h => h.1, fun hfinite => ⟨hfinite, hnonneg⟩⟩

/-- Exactly the boxes with the lower edge at minus infinity have a proxy that is not finite, and
exactly the tracks that have seen one keep such an average, and no closing rate, for the rest of
their lifetimes. -/
theorem proxies_follow_lifetimes
    {engine : RiskEngine} (hnew : RiskEngine.ofSettings settings = .ok engine)
    (frames : List EngineFrame) : ProxiesFollowLifetimes settings engine frames := by
  have hs : settings.Admissible :=
    RiskSettings.check_eq_ok_iff.mp (RiskEngine.ofSettings_eq_ok_iff.mp hnew).1
  have hempty : engine.tracks.AllTracked ∧ engine.settings = settings := by
    obtain ⟨-, rfl⟩ := RiskEngine.ofSettings_eq_ok_iff.mp hnew
    exact ⟨TrackMap.allTracked_empty, rfl⟩
  refine ⟨isAmount_distance_iff settings, ?_, ?_, ?_, ?_⟩
  · intro taken hmem pair hpair huntracked
    rw [RiskEngine.metrics_of_untracked hempty.1 hmem hpair huntracked, firstMetrics_distance,
      hempty.2]
    exact isAmount_distance_iff settings _ _
  · intro name id past s hfront
    obtain ⟨slot, hall⟩ := RiskEngine.exists_history hnew name id frames
    exact (hall.sighting_isAverageOf hs hfront).1.isAmount_iff
  · intro name id past s hfront
    obtain ⟨slot, hall⟩ := RiskEngine.exists_history hnew name id frames
    exact (hall.sighting_isAverageOf hs hfront).2
  · intro n taken hn key t hfound
    have htracked := RiskEngine.allTracked_of_mem_run hempty.1 (List.mem_of_getElem? hn)
    obtain ⟨name, identity⟩ := key
    cases identity with
    | ephemeral frame position =>
        rw [htracked.get?_of_isEphemeral rfl] at hfound
        contradiction
    | tracked id =>
        have hhistory := RiskEngine.history_of_getElem?_run hnew name id hn
        rw [TrackKey.object, hfound] at hhistory
        obtain ⟨x, hcurrent, hx⟩ := hhistory.isAverageOf hs
        exact ⟨x, hcurrent, hx.isAmount_iff⟩

/-- A person with a box whose lower edge is written as `-1e39`, and on the next frame one with a box
right ahead. -/
def bottomlessOnce : List EngineFrame :=
  let bottomless : Detection := ⟨1, 0, "Person", 1, ⟨260, 100, 380, narrow (-1e39)⟩⟩
  let ahead : Detection := ⟨1, 0, "Person", 1, ⟨260, 100, 380, 400⟩⟩
  [⟨⟨⟨640, 480⟩, 0, 30⟩, [bottomless]⟩, ⟨⟨⟨640, 480⟩, 1, 30⟩, [ahead]⟩]

theorem sightingsOf_bottomlessOnce :
    ∃ first second,
      [first] ++ [second] <+:
          RiskEngine.sightingsOf ⟨.default, .empty, 0⟩ (.object "Person" 1) bottomlessOnce ∧
        Poisoned (lifetime ([first] ++ [second])) ∧
        ¬second.detection.BottomAtMinusInfinity := by
  have hfacts : (RiskEngine.sightingsOf ⟨.default, .empty, 0⟩ (.object "Person" 1)
      bottomlessOnce).map (fun s => (s.isNew, decide s.detection.BottomAtMinusInfinity)) =
        [(true, true), (false, false)] := by
    decide +kernel
  have hlength := congrArg List.length hfacts
  rw [List.length_map] at hlength
  obtain ⟨first, second, hall⟩ := List.length_eq_two.mp hlength
  rw [hall] at hfacts
  simp only [List.map_cons, List.map_nil, List.cons.injEq, Prod.mk.injEq, decide_eq_true_eq,
    decide_eq_false_iff_not, and_true] at hfacts
  obtain ⟨⟨hnew₁, hbottom₁⟩, hnew₂, hbottom₂⟩ := hfacts
  have hlife : lifetime ([first] ++ [second]) = [first, second] := by
    simp [lifetime, sinceLast, hnew₁, hnew₂]
  have hpoisoned : Poisoned [first, second] := ⟨first, List.mem_cons_self, hbottom₁⟩
  refine ⟨first, second, ?_, hlife ▸ hpoisoned, hbottom₂⟩
  rw [hall]
  exact List.prefix_rfl

theorem not_proxiesAreAmounts : ¬ProxiesAreAmounts := by
  intro hamounts
  obtain ⟨hmeasured, -⟩ := hamounts .default _ RiskEngine.ofSettings_default
  have hfinite := (hmeasured ⟨640, 480⟩ ⟨1, 0, "Person", 1, ⟨260, 100, 380, narrow (-1e39)⟩⟩).1
  exact absurd hfinite (by decide +kernel)

/-- The box on the second frame is an ordinary one, and still its average is not finite and its
closing rate is zero. -/
theorem proxies_follow_lifetimes_bottomlessOnce :
    RiskEngine.ofSettings .default = .ok ⟨.default, .empty, 0⟩ ∧
      ∃ first second,
        [first] ++ [second] <+:
            RiskEngine.sightingsOf ⟨.default, .empty, 0⟩ (.object "Person" 1) bottomlessOnce ∧
          ¬second.detection.BottomAtMinusInfinity ∧
          ¬IsAmount second.metrics.distance ∧ second.metrics.closingRate = 0 := by
  obtain ⟨first, second, hfront, hpoisoned, hbottom⟩ := sightingsOf_bottomlessOnce
  have hfollow := proxies_follow_lifetimes RiskEngine.ofSettings_default bottomlessOnce
  refine ⟨RiskEngine.ofSettings_default, first, second, hfront, hbottom, ?_, ?_⟩
  · intro hamount
    exact (hfollow.reported "Person" 1 [first] second hfront).mp hamount hpoisoned
  · exact hfollow.muted "Person" 1 [first] second hfront hpoisoned

end ObstacleWatch
