import ObstacleWatch.Proofs.EngineRun

/-!
# A run seen from one track

The engine keeps all tracks in one map.  Seen from the key of one tracked object it is a much
smaller machine: a slot that is empty or holds a track, a detection of the object that goes through
the slot, and the end of a frame that may empty it.  `run_project` says that this view is exact:
what the slot holds and which sightings the object gets depend on its own detections alone.
-/

namespace ObstacleWatch

namespace TrackKey

/-- The key of a tracked object, from its class name and the tracker's number. -/
def object (name : String) (id : Int) : TrackKey :=
  ⟨name, .tracked id⟩

@[simp] theorem isEphemeral_object (name : String) (id : Int) :
    (object name id).isEphemeral = false := rfl

end TrackKey

namespace Detection

/-- The detection shows the tracked object with a class name and a number. -/
def Shows (name : String) (id : Int) (d : Detection) : Prop :=
  d.IsTracked ∧ d.className = name ∧ d.trackId = id

instance (name : String) (id : Int) : DecidablePred (Shows name id) :=
  fun _ => inferInstanceAs (Decidable (_ ∧ _))

end Detection

theorem TrackKey.ofDetection_eq_object_iff
    {frame position : Nat} {d : Detection} {name : String} {id : Int} :
    ofDetection frame position d = object name id ↔ d.Shows name id := by
  unfold ofDetection object Detection.Shows
  by_cases htracked : d.IsTracked <;> simp [htracked]

/-! ## The slot of one key -/

/-- The detections of the key on one frame go through the slot. -/
def slotSightAll (settings : RiskSettings) (ctx : FrameContext) (key : TrackKey) :
    Option Track → List Detection → Option Track × List Sighting
  | slot, [] => (slot, [])
  | slot, d :: ds =>
      let (t, s) := slotSight settings ctx key slot d
      let (slot, ss) := slotSightAll settings ctx key (some t) ds
      (slot, s :: ss)

/-- The end of a frame empties the slot of a stale track. -/
def slotReap (settings : RiskSettings) (frame : Nat) (slot : Option Track) : Option Track :=
  slot.filter fun t => !decide (t.IsStale frame settings.staleFrames)

theorem slotReap_none (settings : RiskSettings) (frame : Nat) :
    slotReap settings frame none = none := rfl

theorem slotReap_some (settings : RiskSettings) (frame : Nat) (t : Track) :
    slotReap settings frame (some t) =
      if t.IsStale frame settings.staleFrames then none else some t := by
  by_cases hstale : t.IsStale frame settings.staleFrames <;>
    simp [slotReap, Option.filter_some, hstale]

/-- The slot on a frame that holds only detections of the key. -/
def slotStep (settings : RiskSettings) (key : TrackKey) (slot : Option Track) (f : EngineFrame) :
    Option Track × List Sighting :=
  let (left, ss) := slotSightAll settings f.context key slot f.detections
  (slotReap settings f.context.index left, ss)

/-- The slot on a list of frames, with the sightings of each frame. -/
def slotRun (settings : RiskSettings) (key : TrackKey) :
    Option Track → List EngineFrame → List (Option Track × List Sighting)
  | _, [] => []
  | slot, f :: fs =>
      let after := slotStep settings key slot f
      after :: slotRun settings key after.1 fs

theorem slotSightAll_cons (settings : RiskSettings) (ctx : FrameContext) (key : TrackKey)
    (slot : Option Track) (d : Detection) (ds : List Detection) :
    slotSightAll settings ctx key slot (d :: ds) =
      ((slotSightAll settings ctx key (some (slotSight settings ctx key slot d).1) ds).1,
        (slotSight settings ctx key slot d).2 ::
          (slotSightAll settings ctx key (some (slotSight settings ctx key slot d).1) ds).2) := by
  rfl

/-! ## Projecting one frame -/

variable (settings : RiskSettings) (ctx : FrameContext) (name : String) (id : Int)

variable {name id} in
theorem sight_of_shows {d : Detection} (hshows : d.Shows name id) (position : Nat)
    (m : TrackMap) :
    sight settings ctx position m d =
      (m.insert (.object name id)
          (slotSight settings ctx (.object name id) (m.get? (.object name id)) d).1,
        (slotSight settings ctx (.object name id) (m.get? (.object name id)) d).2) := by
  rw [sight_eq, TrackKey.ofDetection_eq_object_iff.mpr hshows]

theorem sight_key (position : Nat) (m : TrackMap) (d : Detection) :
    (sight settings ctx position m d).2.key = TrackKey.ofDetection ctx.index position d := by
  rfl

theorem get?_sight_of_ne {key : TrackKey} {position : Nat} {d : Detection}
    (hne : TrackKey.ofDetection ctx.index position d ≠ key) (m : TrackMap) :
    (sight settings ctx position m d).1.get? key = m.get? key :=
  m.get?_insert_of_ne key (Ne.symm hne) _

/-- The detections of a frame change the slot of the object as its own detections do, and its
sightings are those of the slot. -/
theorem sightAll_project (position : Nat) (m : TrackMap) (ds : List Detection) :
    ((sightAll settings ctx position m ds).1.get? (.object name id),
        (sightAll settings ctx position m ds).2.filter fun s =>
          s.key = .object name id) =
      slotSightAll settings ctx (.object name id) (m.get? (.object name id))
        (ds.filter fun d => d.Shows name id) := by
  induction ds generalizing position m with
  | nil => rfl
  | cons d ds ih =>
      have hrest := ih (position + 1) (sight settings ctx position m d).1
      rw [Prod.ext_iff] at hrest
      rw [sightAll_cons]
      by_cases hshows : d.Shows name id
      · have hkey : (sight settings ctx position m d).2.key = .object name id := by
          rw [sight_key, TrackKey.ofDetection_eq_object_iff.mpr hshows]
        rw [List.filter_cons_of_pos (by simpa using hkey),
          List.filter_cons_of_pos (by simpa using hshows), slotSightAll_cons]
        simp only [sight_of_shows settings ctx hshows, TrackMap.get?_insert_self] at hrest ⊢
        rw [hrest.1, hrest.2]
      · have hne : TrackKey.ofDetection ctx.index position d ≠ .object name id :=
          fun heq => hshows (TrackKey.ofDetection_eq_object_iff.mp heq)
        have hkey : (sight settings ctx position m d).2.key ≠ .object name id := hne
        rw [List.filter_cons_of_neg (by simpa using hkey),
          List.filter_cons_of_neg (by simpa using hshows)]
        rw [get?_sight_of_ne settings ctx hne] at hrest
        exact Prod.ext hrest.1 hrest.2

/-- Dropping the tracks of unrecognised objects leaves every other track where it is. -/
theorem get?_dropEphemeral {key : TrackKey} (hkey : key.isEphemeral = false) (m : TrackMap)
    (ss : List Sighting) :
    (dropEphemeral m ss).get? key = m.get? key := by
  unfold dropEphemeral
  induction ss generalizing m with
  | nil => rfl
  | cons s ss ih =>
      cases hs : s.key.isEphemeral with
      | false =>
          rw [List.filter_cons_of_neg (by simp [hs])]
          exact ih m
      | true =>
          have hne : key ≠ s.key := by
            intro heq
            rw [heq, hs] at hkey
            contradiction
          rw [List.filter_cons_of_pos (by simp [hs]), List.foldl_cons, ih (m.erase s.key)]
          exact m.get?_erase_of_ne key hne

/-- One frame of the engine, seen from the key of a tracked object. -/
theorem step_project (e : RiskEngine) (f : EngineFrame) :
    ((e.step f).engine.tracks.get? (.object name id),
        (e.step f).report.sightings.filter fun s => s.key = .object name id) =
      slotStep e.settings (.object name id) (e.tracks.get? (.object name id))
        (f.restrict (Detection.Shows name id)) := by
  have hall := sightAll_project e.settings f.context name id 0 e.tracks f.detections
  have hkept : (e.step f).engine.tracks.get? (.object name id) =
      slotReap e.settings f.context.index
        ((sightAll e.settings f.context 0 e.tracks f.detections).1.get? (.object name id)) := by
    rw [← get?_dropEphemeral (TrackKey.isEphemeral_object name id)
      (sightAll e.settings f.context 0 e.tracks f.detections).1
      (sightAll e.settings f.context 0 e.tracks f.detections).2]
    exact TrackMap.get?_reap _ _ _ _
  rw [hkept, RiskEngine.step_sightings]
  rw [Prod.ext_iff] at hall
  exact Prod.ext (congrArg (slotReap e.settings f.context.index) hall.1) hall.2

/-! ## Projecting a run -/

/-- A run of the engine, seen from the key of a tracked object, is the run of its slot on its own
detections. -/
theorem run_project (e : RiskEngine) (frames : List EngineFrame) :
    (e.run frames).map (fun taken =>
        (taken.engine.tracks.get? (.object name id),
          taken.report.sightings.filter fun s => s.key = .object name id)) =
      slotRun e.settings (.object name id) (e.tracks.get? (.object name id))
        (frames.map fun f => f.restrict (Detection.Shows name id)) := by
  induction frames generalizing e with
  | nil => rfl
  | cons f fs ih =>
      have hstep := step_project name id e f
      rw [RiskEngine.run_cons, List.map_cons, ih, List.map_cons, hstep]
      rw [slotRun, ← hstep, RiskEngine.step_settings]

/-- The sightings under the key of an object are those of its detections. -/
theorem filter_key_eq
    {e : RiskEngine} {frames : List EngineFrame} {taken : EngineStep}
    (hmem : taken ∈ e.run frames) :
    (taken.report.sightings.filter fun s => s.key = .object name id) =
      taken.report.sightings.filter fun s => s.detection.Shows name id := by
  apply List.filter_congr
  intro s hs
  obtain ⟨before, -, htaken⟩ :=
    RiskEngine.exists_step_of_mem_run (P := fun _ => True) (fun _ _ _ => trivial) trivial hmem
  rw [htaken, RiskEngine.step_sightings] at hs
  obtain ⟨place, hkey⟩ := key_of_mem_sightAll _ _ hs
  rw [hkey, decide_eq_decide]
  exact TrackKey.ofDetection_eq_object_iff

theorem metricsOf_shows
    {e : RiskEngine} {frames : List EngineFrame} {taken : EngineStep}
    (hmem : taken ∈ e.run frames) :
    taken.metricsOf (Detection.Shows name id) =
      (taken.report.sightings.filter fun s => s.key = .object name id).map (·.metrics) := by
  rw [RiskEngine.metricsOf_of_mem_run hmem, filter_key_eq name id hmem]

end ObstacleWatch
