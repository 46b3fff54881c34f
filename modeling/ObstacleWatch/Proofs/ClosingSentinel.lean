import ObstacleWatch.Assessment
import ObstacleWatch.Proofs.FloatGaps
import ObstacleWatch.Proofs.StaticObject

/-!
# The time to collision of an object that never collides

The time that stands for no collision is in the range of computed times.  An object whose proxy is
large and that closes slowly may be given a time at or beyond it, and then counts as not closing.
That takes a proxy above one, which only a box that ends above its frame has: the weights of the
proxy add up to one, and so do the weights of the average, even with all roundings.  The reciprocal
of the least closing rate falls short of the sentinel by the last place of a double.
-/

namespace ObstacleWatch

variable {settings : RiskSettings} {ctx : FrameContext} {key : TrackKey} {slot : Option Track}
  {life past all : List Sighting} {s : Sighting} {m : RiskMetrics}

/-! ## Proxies up to one -/

/-- The whole box lies above the upper edge of its frame. -/
def Detection.EndsAboveFrame (d : Detection) : Prop :=
  d.bottomY < 0

instance : DecidablePred Detection.EndsAboveFrame :=
  fun d => inferInstanceAs (Decidable (d.bottomY < 0))

theorem isWithin_bottomGap_one {bottom frameHeight : Float}
    (hheight : IsWithin 4294967296 frameHeight) (hbottom : ¬bottom < 0) :
    IsWithin 1 (bottomGap bottom frameHeight) := by
  refine ⟨zero_le_atLeast _, ?_, rfl⟩
  unfold bottomGap
  by_cases hpos : 0 < (frameHeight - bottom) / atLeast 1 frameHeight
  · rw [atLeast_of_lt hpos]
    have hquotient : IsNumber ((frameHeight - bottom) / atLeast 1 frameHeight) := .right_of_lt hpos
    have hdifference := (hquotient.of_div (value_atLeast_one_ne_zero frameHeight)).1
    have hbottomNonneg : 0 ≤ bottom :=
      float_le_of_not_lt hdifference.of_sub.2 isNumber_zero hbottom
    have hfinite := hheight.isFinite
    have hgap : frameHeight - bottom ≤ atLeast 1 frameHeight :=
      float_le_trans (float_sub_le_self hfinite hbottomNonneg)
        (self_le_atLeast isNumber_one (.of_isFinite hfinite))
    have hscale : 0 < atLeast 1 frameHeight :=
      float_lt_of_lt_of_le (by decide +kernel) (one_le_atLeast frameHeight)
    exact float_div_le_one hgap hscale (isFinite_atLeast rfl hfinite) hquotient
  · rw [atLeast_of_not_lt hpos]
    exact by decide +kernel

namespace BoxGeometry

theorem isWithin_distance_one (settings : RiskSettings) (size : FrameSize) {d : Detection}
    (hd : ¬d.EndsAboveFrame) : IsWithin 1 (measure settings size d).distance := by
  have hgap := isWithin_bottomGap_one (isWithin_heightPx size) hd
  have hheightPart := (isWithin_self (a := 0.60) (by decide +kernel) (by decide +kernel)).mul
    (isWithin_inverse_atLeast_one (measure settings size d).boxHeight) (c := 0.60)
    (by decide +kernel) (by decide +kernel)
  have hsidePart := (isWithin_self (a := 0.25) (by decide +kernel) (by decide +kernel)).mul
    (isWithin_inverse_atLeast_one (measure settings size d).area.sqrt) (c := 0.25)
    (by decide +kernel) (by decide +kernel)
  have hgapPart := (isWithin_self (a := 0.15) (by decide +kernel) (by decide +kernel)).mul hgap
    (c := 0.15) (by decide +kernel) (by decide +kernel)
  exact (hheightPart.add hsidePart (c := 0.85) (by decide +kernel) (by decide +kernel)).add hgapPart
    (by decide +kernel) rfl

end BoxGeometry

/-! ## Averages up to one -/

theorem add_nearestDouble_sub_lt {w : ℝ} (hw : 0 < w) (hw' : w ≤ 1) :
    w + nearestDouble (1 - w) < 1 + 2 ^ (-53 : ℤ) := by
  rcases hw'.eq_or_lt with rfl | hlt
  · rw [sub_self, nearestDouble_zero]
    norm_num
  · have hpos : 0 < 1 - w := sub_pos.mpr hlt
    have hlog : Int.log 2 |1 - w| < 0 := by
      rw [abs_of_pos hpos]
      refine (Int.lt_zpow_iff_log_lt Nat.one_lt_two hpos).mp ?_
      rw [zpow_zero]
      linarith
    have hunit : unitExponent (1 - w) ≤ -53 := by
      rw [unitExponent]
      omega
    have hlast : (2 : ℝ) ^ unitExponent (1 - w) ≤ 2 ^ (-53 : ℤ) :=
      zpow_le_zpow_right₀ one_le_two hunit
    have hclose := (abs_le.mp (abs_nearestDouble_sub_le_half (1 - w))).2
    have hplace : (0 : ℝ) < 2 ^ (-53 : ℤ) := by positivity
    linarith

namespace DistanceAverage

variable {alpha x average : Float}

/-- A weight and the rest of it, as it is computed, make up no more than one. -/
theorem share_add_rest_le_one (halpha : IsShare alpha) : alpha + (1 - alpha) ≤ 1 := by
  have hfinite := isFinite_share halpha
  have hrest := isFinite_rest halpha
  have hrestLe : 1 - alpha ≤ 1 := float_sub_le_self rfl (float_le_of_lt halpha.1)
  have hsum : (alpha + (1 - alpha)).isFinite = true :=
    (IsWithin.add ⟨float_le_of_lt halpha.1, halpha.2, rfl⟩ ⟨halpha.rest_nonneg, hrestLe, rfl⟩
      (c := 2) (by decide +kernel) rfl).isFinite
  have hpos : 0 < realValue alpha := by
    rw [← realValue_zero]
    exact (realValue_lt_iff rfl hfinite).mpr halpha.1
  have hle : realValue alpha ≤ 1 := by
    rw [← realValue_one]
    exact (realValue_le_iff hfinite rfl).mpr halpha.2
  rw [← realValue_le_iff hsum rfl, realValue_one, realValue_add hsum, realValue_sub hrest,
    realValue_one]
  exact nearestDouble_le_one (add_nearestDouble_sub_lt hpos hle)

theorem isWithin_smooth_one (halpha : IsShare alpha) (hx : IsWithin 1 x)
    (haverage : IsWithin 1 average) : IsWithin 1 (smooth alpha x (some average)) := by
  have halphaSelf := isWithin_self (float_le_of_lt halpha.1) (isFinite_share halpha)
  have hrestSelf := isWithin_self halpha.rest_nonneg (isFinite_rest halpha)
  have hnew : IsWithin alpha (alpha * x) :=
    halphaSelf.mul hx (float_mul_one_le (.right_of_lt halpha.1)) halphaSelf.finite
  have hold : IsWithin (1 - alpha) ((1 - alpha) * average) :=
    hrestSelf.mul haverage (float_mul_one_le (.right_of_le halpha.rest_nonneg)) hrestSelf.finite
  exact hnew.add hold (share_add_rest_le_one halpha) rfl

end DistanceAverage

/-! ## Lifetimes of boxes that reach the frame -/

def ReachesFrame (life : List Sighting) : Prop :=
  ∀ s ∈ life, ¬s.detection.EndsAboveFrame

/-- What an average can be after sightings of boxes that reach the frame. -/
def IsFrameAverage (life : List Sighting) (x : Float) : Prop :=
  ReachesFrame life → IsWithin 1 x

theorem isFrameAverage_first (settings : RiskSettings) (size : FrameSize) (s : Sighting) :
    IsFrameAverage [s] (BoxGeometry.measure settings size s.detection).distance := by
  intro hreaches
  exact BoxGeometry.isWithin_distance_one settings size (hreaches s List.mem_cons_self)

theorem IsFrameAverage.next {x : Float} (hx : IsFrameAverage life x) (hs : settings.Admissible)
    (size : FrameSize) (s : Sighting) :
    IsFrameAverage (life ++ [s]) (DistanceAverage.smooth settings.emaAlpha
      (BoxGeometry.measure settings size s.detection).distance (some x)) := by
  intro hreaches
  obtain ⟨hlife, hlast⟩ := List.forall_mem_append.mp hreaches
  exact DistanceAverage.isWithin_smooth_one hs.emaAlpha
    (BoxGeometry.isWithin_distance_one settings size (hlast s List.mem_cons_self)) (hx hlife)

theorem History.distance_isFrameAverage (hs : settings.Admissible)
    (hall : History settings key all slot) (hfront : past ++ [s] <+: all) :
    IsFrameAverage (lifetime (past ++ [s])) s.metrics.distance :=
  hall.distance_of_average (fun _ _ hpast => hpast.exists_average (isFrameAverage_first settings)
    fun _ _ size s hx => hx.next hs size s) hfront

/-! ## The sentinel -/

/-- The time to collision as the summary of an object has it. -/
def RiskMetrics.pttcText (m : RiskMetrics) : String :=
  if neverCollides ≤ m.pttc then "inf" else fixed 1 m.pttc ++ "s"

theorem AssessedObject.summary_eq (o : AssessedObject) :
    o.summary =
      s!"{o.metrics.level.name} | {o.detection.className} id={o.detection.trackId}" ++
        s!" | pTTC={o.metrics.pttcText} | dist={fixed 4 o.metrics.distance}" ++
        s!" | center={o.metrics.inCenter} | approaching={o.metrics.approaching}" := by
  simp only [summary, RiskMetrics.pttcText, toString, String.append_assoc]

theorem RiskMetrics.pttcText_eq_inf_iff : m.pttcText = "inf" ↔ neverCollides ≤ m.pttc := by
  unfold pttcText
  split
  · next hnever => exact iff_of_true rfl hnever
  · next hshort =>
      refine iff_of_false (fun htext => ?_) hshort
      have hlast := congrArg (fun text => text.toList.getLast?) htext
      simp at hlast

/-- The time and the texts tell whether the object is closing. -/
structure TellsClosing (m : RiskMetrics) : Prop where
  isClosing : m.isClosing = true ↔ leastClosingRate < m.closingRate
  below : leastClosingRate < m.closingRate → m.pttc < neverCollides
  never : m.pttc = neverCollides ↔ ¬leastClosingRate < m.closingRate
  text : m.pttcText = "inf" ↔ ¬leastClosingRate < m.closingRate

theorem tellsClosing_of_still (hpttc : m.pttc = neverCollides)
    (hstill : ¬leastClosingRate < m.closingRate) : TellsClosing m := by
  have hself : neverCollides ≤ neverCollides := by decide +kernel
  have hnotBelow : ¬neverCollides < neverCollides := by decide +kernel
  refine ⟨?_, fun hclosing => absurd hclosing hstill, ?_, ?_⟩
  · rw [RiskMetrics.isClosing, decide_eq_true_iff, hpttc]
    exact iff_of_false hnotBelow hstill
  · exact iff_of_true hpttc hstill
  · rw [RiskMetrics.pttcText_eq_inf_iff, hpttc]
    exact iff_of_true hself hstill

theorem tellsClosing_of_below (hbelow : m.pttc < neverCollides)
    (hclosing : leastClosingRate < m.closingRate) : TellsClosing m := by
  have hnotReached : ¬neverCollides ≤ m.pttc := float_not_le_of_lt hbelow
  refine ⟨?_, fun _ => hbelow, ?_, ?_⟩
  · rw [RiskMetrics.isClosing, decide_eq_true_iff]
    exact iff_of_true hbelow hclosing
  · refine iff_of_false (fun hpttc => hnotReached ?_) (not_not_intro hclosing)
    rw [hpttc]
    exact by decide +kernel
  · rw [RiskMetrics.pttcText_eq_inf_iff]
    exact iff_of_false hnotReached (not_not_intro hclosing)

/-- The reciprocal of the least closing rate is the last double before the sentinel. -/
theorem timeToCollision_lt {distance rate : Float} (hdistance : IsWithin 1 distance)
    (hrate : leastClosingRate < rate) : timeToCollision distance rate < neverCollides := by
  have hquotient : distance / rate ≤ 1 / leastClosingRate :=
    float_div_le_div hdistance.nonneg hdistance.le rfl (by decide +kernel) (float_le_of_lt hrate)
  have hshort : 1 / leastClosingRate < neverCollides := by decide +kernel
  rw [timeToCollision, if_pos hrate]
  exact float_lt_of_le_of_lt hquotient hshort

/-! ## Runs -/

/-- The metrics of every object with finite edges tell whether it is closing. -/
def SentinelIsUnambiguous : Prop :=
  ∀ (settings : RiskSettings) (engine : RiskEngine) (frames : List EngineFrame),
    RiskEngine.ofSettings settings = .ok engine →
      (∀ f ∈ frames, ∀ d ∈ f.detections, d.HasFiniteBox) →
        ∀ taken ∈ engine.run frames, ∀ m ∈ taken.report.metrics, TellsClosing m

/-- What the sentinel tells along a run, whatever the boxes are. -/
structure SentinelOfRun (settings : RiskSettings) (engine : RiskEngine)
    (frames : List EngineFrame) : Prop where
  still : ∀ taken ∈ engine.run frames, ∀ m ∈ taken.report.metrics,
    ¬leastClosingRate < m.closingRate → TellsClosing m
  /-- An object that closes is recognised exactly if its time is below the sentinel. -/
  closing : ∀ taken ∈ engine.run frames, ∀ m ∈ taken.report.metrics,
    leastClosingRate < m.closingRate →
      m.pttc = m.distance / m.closingRate ∧
        (TellsClosing m ↔ m.distance / m.closingRate < neverCollides)
  untracked : ∀ taken ∈ engine.run frames,
    ∀ pair ∈ taken.frame.detections.zip taken.report.metrics, ¬pair.1.IsTracked →
      ¬leastClosingRate < pair.2.closingRate
  reported : ∀ name id,
    (engine.sightingsOf (.object name id) frames).map (fun s => (s.detection, s.metrics)) =
      (engine.run frames).flatMap fun taken =>
        (taken.frame.detections.zip taken.report.metrics).filter fun pair =>
          pair.1.Shows name id
  reachesFrame : ∀ name id past s, past ++ [s] <+: engine.sightingsOf (.object name id) frames →
    ReachesFrame (lifetime (past ++ [s])) → TellsClosing s.metrics

theorem RiskEngine.pttc_of_mem_run
    {engine : RiskEngine} (hnew : ofSettings settings = .ok engine) {frames : List EngineFrame}
    {taken : EngineStep} (hmem : taken ∈ engine.run frames) {s : Sighting}
    (hs : s ∈ taken.report.sightings) :
    s.metrics.pttc = timeToCollision s.metrics.distance s.metrics.closingRate := by
  obtain ⟨key, slot, -, hsight⟩ :=
    exists_slot_of_mem_run hnew (P := fun _ => True) (fun _ _ _ _ _ => trivial) hmem hs
  rw [hsight]
  rfl

/-- An object that does not close is never taken for one that does.  One that closes is recognised,
unless its average has taken in a box above the frame and its time has reached the sentinel. -/
theorem sentinel_tells_closing_in_frame
    {engine : RiskEngine} (hnew : RiskEngine.ofSettings settings = .ok engine)
    (frames : List EngineFrame) : SentinelOfRun settings engine frames := by
  have hs : settings.Admissible :=
    RiskSettings.check_eq_ok_iff.mp (RiskEngine.ofSettings_eq_ok_iff.mp hnew).1
  have hpttc (taken : EngineStep) (hmem : taken ∈ engine.run frames) (m : RiskMetrics)
      (hm : m ∈ taken.report.metrics) : m.pttc = timeToCollision m.distance m.closingRate := by
    obtain ⟨s, hmemS, rfl⟩ := List.mem_map.mp hm
    exact RiskEngine.pttc_of_mem_run hnew hmem hmemS
  constructor
  · intro taken hmem m hm hstill
    refine tellsClosing_of_still ?_ hstill
    rw [hpttc taken hmem m hm, timeToCollision, if_neg hstill]
  · intro taken hmem m hm hclosing
    have hquotient : m.pttc = m.distance / m.closingRate := by
      rw [hpttc taken hmem m hm, timeToCollision, if_pos hclosing]
    refine ⟨hquotient, fun htells => hquotient ▸ htells.below hclosing, fun hbelow => ?_⟩
    exact tellsClosing_of_below (hquotient ▸ hbelow) hclosing
  · intro taken hmem pair hpair huntracked
    obtain ⟨-, rfl⟩ := RiskEngine.ofSettings_eq_ok_iff.mp hnew
    have hfirst :=
      RiskEngine.metrics_of_untracked TrackMap.allTracked_empty hmem hpair huntracked
    rw [hfirst, firstMetrics_closingRate]
    exact by decide +kernel
  · exact fun name id => engine.sightingsOf_reported name id frames
  · intro name id past s hfront hreaches
    obtain ⟨slot, hall⟩ := RiskEngine.exists_history hnew name id frames
    have hdistance := hall.distance_isFrameAverage hs hfront hreaches
    have hmemS : s ∈ engine.sightingsOf (.object name id) frames := hfront.subset (by simp)
    obtain ⟨taken, hmem, hreported⟩ := exists_taken_of_mem_sightingsOf hmemS
    have htime := RiskEngine.pttc_of_mem_run hnew hmem hreported
    by_cases hclosing : leastClosingRate < s.metrics.closingRate
    · refine tellsClosing_of_below ?_ hclosing
      rw [htime]
      exact timeToCollision_lt hdistance hclosing
    · refine tellsClosing_of_still ?_ hclosing
      rw [htime, timeToCollision, if_neg hclosing]

/-- A person far above the frame grows wider, and another one comes closer in the frame. -/
def risingFrames : List EngineFrame :=
  let high : Float32 := narrow (-1e14)
  [⟨⟨⟨640, 480⟩, 0, 30⟩,
      [⟨1, 0, "Person", 1, ⟨320, high, 320, high⟩⟩, ⟨2, 0, "Person", 1, ⟨20, 100, 60, 160⟩⟩]⟩,
    ⟨⟨⟨640, 480⟩, 1, 30⟩,
      [⟨1, 0, "Person", 1, ⟨220, high, 420, high⟩⟩, ⟨2, 0, "Person", 1, ⟨20, 100, 80, 300⟩⟩]⟩]

theorem not_sentinelIsUnambiguous : ¬SentinelIsUnambiguous := by
  intro hsentinel
  let engine : RiskEngine := ⟨.default, .empty, 0⟩
  have htells := hsentinel .default engine risingFrames RiskEngine.ofSettings_default
    (by decide +kernel)
  have hclosing : ∀ taken ∈ engine.run risingFrames, ∀ m ∈ taken.report.metrics,
      m.isClosing = true ↔ leastClosingRate < m.closingRate :=
    fun taken hmem m hm => (htells taken hmem m hm).isClosing
  exact absurd hclosing (by decide +kernel)

/-- Both close on the second frame, but only the person in the frame is recognised. -/
theorem sentinel_tells_closing_in_frame_twoPersons :
    let engine : RiskEngine := ⟨.default, .empty, 0⟩
    RiskEngine.ofSettings .default = .ok engine ∧
      SentinelOfRun .default engine risingFrames ∧
      (engine.run risingFrames).map (fun taken => taken.report.metrics.map fun m =>
        (decide (leastClosingRate < m.closingRate), m.isClosing)) =
          [[(false, false), (false, false)], [(true, false), (true, true)]] :=
  ⟨RiskEngine.ofSettings_default,
    sentinel_tells_closing_in_frame RiskEngine.ofSettings_default risingFrames, by decide +kernel⟩

end ObstacleWatch
