import Mathlib.Data.List.Forall2
import ObstacleWatch.Proofs.EngineRun

/-!
# Untracked objects leave no trace

A detection without a tracker's number gets a key of its own for one frame.  No such key is left
between frames, and none occurs twice on a frame, so the detection always finds a fresh track: its
metrics are those of a first sighting.  Leaving out all such detections shifts the positions of the
others, and with them only keys that are dropped at the end of the frame; the engine ends every
frame in the same state.
-/

namespace ObstacleWatch

variable {settings : RiskSettings} {ctx : FrameContext} {m : TrackMap} {key : TrackKey}

/-! ## First sightings -/

/-- The metrics of an object seen for the first time. -/
def firstMetrics (settings : RiskSettings) (size : FrameSize) (d : Detection) : RiskMetrics :=
  (assessDetection settings ⟨size, 0, 0⟩ (.ofDetection 0 0 d) true (.fresh 0) d).2.metrics

theorem firstMetrics_distance (size : FrameSize) (d : Detection) :
    (firstMetrics settings size d).distance =
      (BoxGeometry.measure settings size d).distance := by
  rfl

theorem firstMetrics_closingRate (size : FrameSize) (d : Detection) :
    (firstMetrics settings size d).closingRate = 0 := by
  rfl

/-- On first sight neither the frame's number nor its rate matters. -/
theorem assessDetection_fresh_metrics (isNew : Bool) (frame : Nat) (d : Detection) :
    (assessDetection settings ctx key isNew (.fresh frame) d).2.metrics =
      firstMetrics settings ctx.size d := by
  rfl

/-- The map has no track for an unrecognised object at a position or behind it. -/
def TrackMap.FreeFrom (m : TrackMap) (frame position : Nat) : Prop :=
  ∀ name place, position ≤ place → m.get? ⟨name, .ephemeral frame place⟩ = none

theorem TrackMap.FreeFrom.sight
    {position : Nat} (hfree : m.FreeFrom ctx.index position) (d : Detection) :
    (sight settings ctx position m d).1.FreeFrom ctx.index (position + 1) := by
  intro name place hplace
  have hne : (⟨name, .ephemeral ctx.index place⟩ : TrackKey) ≠
      TrackKey.ofDetection ctx.index position d := by
    unfold TrackKey.ofDetection
    intro heq
    simp only [TrackKey.mk.injEq] at heq
    have hidentity := heq.2
    split at hidentity
    · contradiction
    · simp only [TrackIdentity.ephemeral.injEq, true_and] at hidentity
      omega
  rw [sight_eq]
  exact (m.get?_insert_of_ne _ hne _).trans (hfree name place (by omega))

theorem sight_metrics_of_untracked
    {position : Nat} (hfree : m.FreeFrom ctx.index position) {d : Detection}
    (hd : ¬d.IsTracked) :
    (sight settings ctx position m d).2.metrics = firstMetrics settings ctx.size d := by
  have hkey : TrackKey.ofDetection ctx.index position d =
      ⟨d.className, .ephemeral ctx.index position⟩ := by
    simp [TrackKey.ofDetection, hd]
  rw [sight_eq, hkey, hfree d.className position (Nat.le_refl position)]
  exact assessDetection_fresh_metrics _ _ _

theorem sightAll_metrics_of_untracked
    {position : Nat} (hfree : m.FreeFrom ctx.index position) {ds : List Detection}
    {s : Sighting} (hmem : s ∈ (sightAll settings ctx position m ds).2)
    (hs : ¬s.detection.IsTracked) :
    s.metrics = firstMetrics settings ctx.size s.detection := by
  induction ds generalizing position m with
  | nil => simp at hmem
  | cons d ds ih =>
      rw [sightAll_cons] at hmem
      rcases List.mem_cons.mp hmem with rfl | hrest
      · exact sight_metrics_of_untracked hfree hs
      · exact ih (hfree.sight d) hrest

/-! ## The tracked part of a map -/

namespace TrackMap

def tracked (m : TrackMap) : TrackMap :=
  m.filter fun e => !e.1.isEphemeral

def AllTracked (m : TrackMap) : Prop :=
  ∀ e ∈ m.entries, e.1.isEphemeral = false

theorem allTracked_empty : empty.AllTracked := by
  simp [AllTracked, empty]

theorem AllTracked.filter (hm : m.AllTracked) (keep : TrackKey × Track → Bool) :
    (m.filter keep).AllTracked :=
  fun e he => hm e (List.mem_of_mem_filter he)

theorem allTracked_tracked (m : TrackMap) : m.tracked.AllTracked := by
  intro e he
  simpa using List.of_mem_filter he

theorem AllTracked.tracked_eq (hm : m.AllTracked) : m.tracked = m := by
  apply TrackMap.ext
  apply List.filter_eq_self.mpr
  intro e he
  simp [hm e he]

theorem get?_tracked (hkey : key.isEphemeral = false) : m.tracked.get? key = m.get? key := by
  rw [tracked, get?_filter]
  cases m.get? key <;> simp [Option.filter_some, hkey]

theorem tracked_insert (hkey : key.isEphemeral = false) (t : Track) :
    (m.insert key t).tracked = m.tracked.insert key t := by
  apply TrackMap.ext
  simp only [tracked, insert, erase, TrackMap.filter]
  rw [List.filter_cons_of_pos (by simp [hkey]), List.filter_filter, List.filter_filter]
  congr 2
  funext e
  exact Bool.and_comm _ _

theorem tracked_insert_ephemeral (hkey : key.isEphemeral = true) (t : Track) :
    (m.insert key t).tracked = m.tracked := by
  apply TrackMap.ext
  simp only [tracked, insert, erase, TrackMap.filter]
  rw [List.filter_cons_of_neg (by simp [hkey]), List.filter_filter]
  apply List.filter_congr
  intro e _
  by_cases heq : e.1 = key
  · simp [heq, hkey]
  · simp [heq]

theorem AllTracked.get?_of_isEphemeral (hm : m.AllTracked) (hkey : key.isEphemeral = true) :
    m.get? key = none := by
  rw [← hm.tracked_eq, tracked, get?_filter]
  cases m.get? key <;> simp [Option.filter_some, hkey]

theorem AllTracked.freeFrom (hm : m.AllTracked) (frame position : Nat) :
    m.FreeFrom frame position :=
  fun _ _ _ => hm.get?_of_isEphemeral rfl

end TrackMap

/-! ## One frame with and without its untracked detections -/

theorem isEphemeral_ofDetection (frame position : Nat) (d : Detection) :
    (TrackKey.ofDetection frame position d).isEphemeral = !decide d.IsTracked := by
  unfold TrackKey.ofDetection TrackKey.isEphemeral
  by_cases hd : d.IsTracked <;> simp [hd]

theorem ofDetection_of_tracked {d : Detection} (hd : d.IsTracked) (frame : Nat)
    (position place : Nat) :
    TrackKey.ofDetection frame position d = TrackKey.ofDetection frame place d := by
  simp [TrackKey.ofDetection, hd]

/-- A tracked detection does the same to a map and to its tracked part, at whatever position. -/
theorem sight_tracked {d : Detection} (hd : d.IsTracked) (position place : Nat) :
    sight settings ctx place m.tracked d =
      ((sight settings ctx position m d).1.tracked, (sight settings ctx position m d).2) := by
  have hkey : (TrackKey.ofDetection ctx.index position d).isEphemeral = false := by
    simp [isEphemeral_ofDetection, hd]
  rw [sight_eq, sight_eq, ofDetection_of_tracked hd ctx.index place position,
    TrackMap.get?_tracked hkey]
  exact Prod.ext (TrackMap.tracked_insert hkey _).symm rfl

theorem tracked_sight_of_untracked (settings : RiskSettings) (ctx : FrameContext)
    (m : TrackMap) {d : Detection} (hd : ¬d.IsTracked) (position : Nat) :
    (sight settings ctx position m d).1.tracked = m.tracked := by
  have hkey : (TrackKey.ofDetection ctx.index position d).isEphemeral = true := by
    simp [isEphemeral_ofDetection, hd]
  rw [sight_eq]
  exact TrackMap.tracked_insert_ephemeral hkey _

theorem sightAll_tracked (settings : RiskSettings) (ctx : FrameContext) (m : TrackMap)
    (position place : Nat) (ds : List Detection) :
    sightAll settings ctx place m.tracked (ds.filter fun d => d.IsTracked) =
      ((sightAll settings ctx position m ds).1.tracked,
        (sightAll settings ctx position m ds).2.filter fun s =>
          s.detection.IsTracked) := by
  -- Every detection left out moves the later ones up, so the two positions are apart.
  induction ds generalizing position place m with
  | nil => rfl
  | cons d ds ih =>
      have hdetection : (sight settings ctx position m d).2.detection = d := rfl
      rw [sightAll_cons settings ctx position m]
      by_cases hd : d.IsTracked
      · rw [List.filter_cons_of_pos (by simpa using hd),
          List.filter_cons_of_pos (by simpa [hdetection] using hd), sightAll_cons,
          sight_tracked hd position place,
          ih (sight settings ctx position m d).1 (position + 1) (place + 1)]
      · rw [List.filter_cons_of_neg (by simpa using hd),
          List.filter_cons_of_neg (by simpa [hdetection] using hd),
          ← tracked_sight_of_untracked settings ctx m hd position]
        exact ih (sight settings ctx position m d).1 (position + 1) place

/-! ## The end of the frame -/

theorem entries_foldl_erase (m : TrackMap) (ss : List Sighting) :
    (ss.foldl (fun m s => m.erase s.key) m).entries =
      m.entries.filter fun e => ∀ s ∈ ss, e.1 ≠ s.key := by
  induction ss generalizing m with
  | nil => simp
  | cons s ss ih =>
      rw [List.foldl_cons, ih]
      simp only [TrackMap.erase, TrackMap.filter]
      rw [List.filter_filter]
      apply List.filter_congr
      intro e _
      rw [← Bool.decide_and, decide_eq_decide, List.forall_mem_cons, and_comm]

/-- The keys of unrecognised objects in the map are among those of the sightings. -/
def EphemeralSighted (m : TrackMap) (ss : List Sighting) : Prop :=
  ∀ e ∈ m.entries, e.1.isEphemeral = true → ∃ s ∈ ss, s.key = e.1

theorem dropEphemeral_eq_tracked {ss : List Sighting} (hsighted : EphemeralSighted m ss) :
    dropEphemeral m ss = m.tracked := by
  apply TrackMap.ext
  unfold dropEphemeral
  rw [entries_foldl_erase]
  apply List.filter_congr
  intro e he
  cases hephemeral : e.1.isEphemeral with
  | false =>
      have hkept : ∀ s ∈ ss.filter (·.key.isEphemeral), e.1 ≠ s.key := by
        intro s hs heq
        have hs := List.of_mem_filter hs
        rw [← heq, hephemeral] at hs
        contradiction
      simpa using hkept
  | true =>
      obtain ⟨s, hs, hkey⟩ := hsighted e he hephemeral
      have hmem : s ∈ ss.filter (·.key.isEphemeral) :=
        List.mem_filter.mpr ⟨hs, by rw [hkey, hephemeral]⟩
      have hdropped : ¬∀ s ∈ ss.filter (·.key.isEphemeral), e.1 ≠ s.key :=
        fun hkept => hkept s hmem hkey.symm
      simpa using hdropped

theorem mem_entries_sight {position : Nat} {d : Detection} {e : TrackKey × Track}
    (hmem : e ∈ (sight settings ctx position m d).1.entries) :
    e.1 = (sight settings ctx position m d).2.key ∨ e ∈ m.entries := by
  rw [sight_eq] at hmem
  rcases List.mem_cons.mp hmem with rfl | hrest
  · exact Or.inl rfl
  · exact Or.inr (List.mem_of_mem_filter hrest)

theorem ephemeralSighted_sightAll
    {past : List Sighting} (hsighted : EphemeralSighted m past) (position : Nat)
    (ds : List Detection) :
    EphemeralSighted (sightAll settings ctx position m ds).1
      (past ++ (sightAll settings ctx position m ds).2) := by
  induction ds generalizing position m past with
  | nil => simpa [sightAll_nil] using hsighted
  | cons d ds ih =>
      have hnext : EphemeralSighted (sight settings ctx position m d).1
          (past ++ [(sight settings ctx position m d).2]) := by
        intro e he hephemeral
        rcases mem_entries_sight he with hkey | hold
        · exact ⟨_, by simp, hkey.symm⟩
        · obtain ⟨s, hs, hkey⟩ := hsighted e hold hephemeral
          exact ⟨s, List.mem_append_left _ hs, hkey⟩
      have hrest := ih hnext (position + 1)
      rwa [List.append_assoc] at hrest

theorem dropEphemeral_sightAll (hm : m.AllTracked) (position : Nat) (ds : List Detection) :
    dropEphemeral (sightAll settings ctx position m ds).1
        (sightAll settings ctx position m ds).2 =
      (sightAll settings ctx position m ds).1.tracked := by
  have hstart : EphemeralSighted m [] := by
    intro e he hephemeral
    rw [hm e he] at hephemeral
    contradiction
  exact dropEphemeral_eq_tracked (ephemeralSighted_sightAll hstart position ds)

/-! ## Runs with and without the untracked detections -/

/-- A frame, and the same frame without its untracked detections, have the same outcome for the
tracked ones. -/
structure SameForTracked (full kept : EngineStep) : Prop where
  metrics : full.metricsOf Detection.IsTracked = kept.report.metrics
  engine : full.engine = kept.engine
  active : full.report.active = kept.report.active

namespace RiskEngine

variable {e : RiskEngine}

/-- The engine after a frame keeps the tracked part of what the frame left. -/
theorem step_engine (he : e.tracks.AllTracked) (f : EngineFrame) :
    (e.step f).engine =
      ⟨e.settings,
        (sightAll e.settings f.context 0 e.tracks f.detections).1.tracked.reap f.context.index
          e.settings.staleFrames,
        e.reapedTotal +
          (sightAll e.settings f.context 0 e.tracks f.detections).1.tracked.staleCount
            f.context.index e.settings.staleFrames⟩ := by
  rw [← dropEphemeral_sightAll he]
  rfl

/-- A new engine has no tracks. -/
theorem allTracked_of_ofSettings {settings : RiskSettings} (hnew : ofSettings settings = .ok e) :
    e.tracks.AllTracked := by
  obtain ⟨-, rfl⟩ := ofSettings_eq_ok_iff.mp hnew
  exact TrackMap.allTracked_empty

theorem allTracked_step (he : e.tracks.AllTracked) (f : EngineFrame) :
    (e.step f).engine.tracks.AllTracked := by
  rw [step_engine he]
  exact (TrackMap.allTracked_tracked _).filter _

theorem allTracked_of_mem_run (he : e.tracks.AllTracked) {frames : List EngineFrame}
    {taken : EngineStep} (hmem : taken ∈ e.run frames) : taken.engine.tracks.AllTracked := by
  obtain ⟨before, hbefore, htaken⟩ :=
    exists_step_of_mem_run (P := fun next : RiskEngine => next.tracks.AllTracked)
      (fun _ f hnext => allTracked_step hnext f) he hmem
  rw [htaken]
  exact allTracked_step hbefore taken.frame

theorem sightAll_restrict (he : e.tracks.AllTracked) (f : EngineFrame) :
    sightAll e.settings f.context 0 e.tracks (f.restrict Detection.IsTracked).detections =
      ((sightAll e.settings f.context 0 e.tracks f.detections).1.tracked,
        (e.step f).report.sightings.filter fun s => s.detection.IsTracked) := by
  have hall := sightAll_tracked e.settings f.context e.tracks 0 0 f.detections
  rw [he.tracked_eq] at hall
  exact hall

theorem step_restrict_engine (he : e.tracks.AllTracked) (f : EngineFrame) :
    (e.step (f.restrict Detection.IsTracked)).engine = (e.step f).engine := by
  rw [step_engine he, step_engine he, EngineFrame.restrict_context, sightAll_restrict he]
  simp only [(TrackMap.allTracked_tracked _).tracked_eq]

theorem step_restrict_sightings (he : e.tracks.AllTracked) (f : EngineFrame) :
    (e.step (f.restrict Detection.IsTracked)).report.sightings =
      (e.step f).report.sightings.filter fun s => s.detection.IsTracked := by
  rw [step_sightings, EngineFrame.restrict_context, sightAll_restrict he]

theorem step_active (f : EngineFrame) :
    (e.step f).report.active = (e.step f).engine.tracks.size := by
  rfl

theorem run_restrict (he : e.tracks.AllTracked) (frames : List EngineFrame) :
    List.Forall₂ SameForTracked (e.run frames)
      (e.run (frames.map fun f => f.restrict Detection.IsTracked)) := by
  induction frames generalizing e with
  | nil => exact .nil
  | cons f fs ih =>
      have hengine := step_restrict_engine he f
      have hmem : e.step f ∈ e.run [f] := by simp [run_cons]
      have hhead : SameForTracked (e.step f) (e.step (f.restrict Detection.IsTracked)) := by
        constructor
        · rw [metricsOf_of_mem_run hmem, EngineReport.metrics, step_restrict_sightings he]
        · exact hengine.symm
        · rw [step_active, step_active, hengine]
      rw [List.map_cons, run_cons, run_cons, hengine]
      exact .cons hhead (ih (allTracked_step he f))

/-- Whatever a run holds, an untracked detection is assessed as a first sighting. -/
theorem sighting_metrics_of_untracked
    (he : e.tracks.AllTracked) {frames : List EngineFrame} {taken : EngineStep}
    (hmem : taken ∈ e.run frames) {s : Sighting} (hs : s ∈ taken.report.sightings)
    (huntracked : ¬s.detection.IsTracked) :
    s.metrics = firstMetrics e.settings taken.frame.context.size s.detection := by
  obtain ⟨before, ⟨hbefore, hsettings⟩, htaken⟩ :=
    exists_step_of_mem_run
      (P := fun next : RiskEngine => next.tracks.AllTracked ∧ next.settings = e.settings)
      (fun next f hnext => ⟨allTracked_step hnext.1 f, hnext.2⟩) ⟨he, rfl⟩ hmem
  rw [htaken, step_sightings] at hs
  rw [← hsettings]
  exact sightAll_metrics_of_untracked (hbefore.freeFrom _ _) hs huntracked

theorem metrics_of_untracked
    (he : e.tracks.AllTracked) {frames : List EngineFrame} {taken : EngineStep}
    (hmem : taken ∈ e.run frames) {pair : Detection × RiskMetrics}
    (hpair : pair ∈ taken.frame.detections.zip taken.report.metrics)
    (huntracked : ¬pair.1.IsTracked) :
    pair.2 = firstMetrics e.settings taken.frame.context.size pair.1 := by
  rw [reported_of_mem_run hmem] at hpair
  obtain ⟨s, hs, rfl⟩ := List.mem_map.mp hpair
  exact sighting_metrics_of_untracked he hmem hs huntracked

/-- An untracked detection alone, on the first frame of an engine. -/
theorem step_alone_metrics
    (he : e.tracks.AllTracked) (ctx : FrameContext) {d : Detection} (huntracked : ¬d.IsTracked) :
    (e.step ⟨ctx, [d]⟩).report.metrics = [firstMetrics e.settings ctx.size d] := by
  have hfirst :
      (sight e.settings ctx 0 e.tracks d).2.metrics = firstMetrics e.settings ctx.size d :=
    sight_metrics_of_untracked (he.freeFrom ctx.index 0) huntracked
  rw [EngineReport.metrics, step_sightings, sightAll_cons, sightAll_nil, List.map_cons, hfirst]
  rfl

end RiskEngine

/-! ## No trace -/

theorem untracked_leave_no_trace
    {settings : RiskSettings} {engine : RiskEngine}
    (hnew : RiskEngine.ofSettings settings = .ok engine) (frames : List EngineFrame) :
    (∀ taken ∈ engine.run frames,
      ∀ pair ∈ taken.frame.detections.zip taken.report.metrics, ¬pair.1.IsTracked →
        ∀ index fps,
          (engine.step ⟨⟨taken.frame.context.size, index, fps⟩, [pair.1]⟩).report.metrics =
            [pair.2]) ∧
      List.Forall₂ SameForTracked (engine.run frames)
        (engine.run (frames.map fun f => f.restrict Detection.IsTracked)) := by
  obtain ⟨-, rfl⟩ := RiskEngine.ofSettings_eq_ok_iff.mp hnew
  have hempty : (RiskEngine.mk settings .empty 0).tracks.AllTracked := TrackMap.allTracked_empty
  refine ⟨?_, RiskEngine.run_restrict hempty frames⟩
  intro taken hmem pair hpair huntracked index fps
  rw [RiskEngine.step_alone_metrics hempty _ huntracked,
    RiskEngine.metrics_of_untracked hempty hmem hpair huntracked]

/-- A stranger twice on a frame with a cart, and again under the same frame number. -/
theorem untracked_leave_no_trace_strangers :
    let engine : RiskEngine := ⟨.default, .empty, 0⟩
    let cart : Detection := ⟨1, 1, "Cart", 1, ⟨20, 100, 60, 160⟩⟩
    let stranger : Detection := ⟨-1, 0, "Person", 1, ⟨260, 100, 380, 400⟩⟩
    let context : FrameContext := ⟨⟨640, 480⟩, 0, 30⟩
    let frames : List EngineFrame :=
      [⟨context, [stranger, cart, stranger]⟩, ⟨context, [cart, stranger]⟩]
    RiskEngine.ofSettings .default = .ok engine ∧
      (∀ taken ∈ engine.run frames,
        ∀ m, (stranger, m) ∈ taken.frame.detections.zip taken.report.metrics →
          (engine.step ⟨⟨taken.frame.context.size, 7, 5⟩, [stranger]⟩).report.metrics = [m]) ∧
      List.Forall₂ SameForTracked (engine.run frames)
        (engine.run [⟨context, [cart]⟩, ⟨context, [cart]⟩]) := by
  intro engine cart stranger context frames
  have hnew : RiskEngine.ofSettings .default = .ok engine := RiskEngine.ofSettings_default
  have hall := untracked_leave_no_trace hnew frames
  have huntracked : ¬stranger.IsTracked := by decide
  refine ⟨hnew, ?_, hall.2⟩
  intro taken hmem m hpair
  exact hall.1 taken hmem (stranger, m) hpair huntracked 7 5

end ObstacleWatch
