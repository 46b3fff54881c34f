import ObstacleWatch.Proofs.StepRun
import ObstacleWatch.Proofs.TrackIsolation
import ObstacleWatch.Proofs.TrackLifetime
import ObstacleWatch.Proofs.TrackWindow

/-!
# The return of a tracked object

Stale tracks are dropped at the end of a frame, after its detections.  An object that has been away
is therefore assessed as a first sighting exactly if some frame without it came too late for its
track, and not already if its own frame comes so late: where the frame numbers skip over the whole
time in between, the object goes on with the track it had.
-/

namespace ObstacleWatch

variable {settings : RiskSettings} {key : TrackKey} {name : String} {id : Int}

/-! ## The slot at a place of a run -/

def slotAfter (settings : RiskSettings) (key : TrackKey) :
    Option Track → List EngineFrame → Option Track :=
  stateAfter (slotStep settings key) Prod.fst

theorem slotAfter_append (settings : RiskSettings) (key : TrackKey) (slot : Option Track)
    (earlier later : List EngineFrame) :
    slotAfter settings key slot (earlier ++ later) =
      slotAfter settings key (slotAfter settings key slot earlier) later :=
  List.foldl_append

theorem slotAfter_cons (settings : RiskSettings) (key : TrackKey) (slot : Option Track)
    (f : EngineFrame) (fs : List EngineFrame) :
    slotAfter settings key slot (f :: fs) =
      slotAfter settings key (slotStep settings key slot f).1 fs := rfl

theorem slotRun_eq_runSteps (settings : RiskSettings) (key : TrackKey) (slot : Option Track)
    (frames : List EngineFrame) :
    slotRun settings key slot frames = runSteps (slotStep settings key) Prod.fst slot frames := by
  induction frames generalizing slot with
  | nil => rfl
  | cons f fs ih => rw [slotRun, runSteps_cons, ih]

/-- What the slot of a tracked object holds before the frame at a place. -/
def slotBefore (settings : RiskSettings) (name : String) (id : Int) (frames : List EngineFrame)
    (n : Nat) : Option Track :=
  slotAfter settings (.object name id) none
    ((frames.take n).map fun f => f.restrict (Detection.Shows name id))

/-- The sightings of an object on the frame at a place of a run are those of its slot. -/
theorem sightings_of_getElem?_run
    {engine : RiskEngine} (hnew : RiskEngine.ofSettings settings = .ok engine)
    (name : String) (id : Int) {frames : List EngineFrame} {n : Nat} {f : EngineFrame}
    (hf : frames[n]? = some f) :
    ∃ taken, (engine.run frames)[n]? = some taken ∧
      (taken.report.sightings.filter fun s => s.detection.Shows name id) =
        (slotStep settings (.object name id) (slotBefore settings name id frames n)
          (f.restrict (Detection.Shows name id))).2 := by
  obtain ⟨-, rfl⟩ := RiskEngine.ofSettings_eq_ok_iff.mp hnew
  have hrun := run_project name id ⟨settings, .empty, 0⟩ frames
  rw [TrackMap.get?_empty, slotRun_eq_runSteps] at hrun
  have hplace := congrArg (·[n]?) hrun
  simp only [List.getElem?_map, getElem?_runSteps, hf, Option.map_some,
    Option.map_eq_some_iff] at hplace
  obtain ⟨taken, htaken, hview⟩ := hplace
  refine ⟨taken, htaken, ?_⟩
  rw [← filter_key_eq name id (List.mem_of_getElem? htaken), slotBefore, slotAfter,
    List.map_take]
  exact congrArg Prod.snd hview

/-! ## Frames with and without the object -/

def EngineFrame.Shows (f : EngineFrame) (name : String) (id : Int) : Prop :=
  ∃ d ∈ f.detections, d.Shows name id

theorem EngineFrame.Shows.restrict_ne_nil {f : EngineFrame} (hshows : f.Shows name id) :
    (f.restrict (Detection.Shows name id)).detections ≠ [] := by
  obtain ⟨d, hmem, hd⟩ := hshows
  exact List.ne_nil_of_mem (List.mem_filter.mpr ⟨hmem, decide_eq_true hd⟩)

theorem EngineFrame.restrict_of_not_shows {f : EngineFrame} (habsent : ¬f.Shows name id) :
    f.restrict (Detection.Shows name id) = ⟨f.context, []⟩ := by
  have hnone : f.detections.filter (fun d => d.Shows name id) = [] := by
    rw [List.filter_eq_nil_iff]
    intro d hmem hd
    exact habsent ⟨d, hmem, of_decide_eq_true hd⟩
  rw [restrict, hnone]

/-- While the object is away its track is dropped by the first frame that finds it stale. -/
theorem slotAfter_absent
    {between : List EngineFrame} (habsent : ∀ f ∈ between, ¬f.Shows name id) (t : Track) :
    slotAfter settings key (some t)
        (between.map fun f => f.restrict (Detection.Shows name id)) =
      if ∃ f ∈ between, t.IsStale f.context.index settings.staleFrames then none else some t := by
  -- A dropped track stays away, since only a detection of the object brings one back.
  have hnone (fs : List EngineFrame) (hfs : ∀ f ∈ fs, ¬f.Shows name id) :
      slotAfter settings key none (fs.map fun f => f.restrict (Detection.Shows name id)) =
        none := by
    induction fs with
    | nil => rfl
    | cons f fs ih =>
        obtain ⟨hf, hrest⟩ := List.forall_mem_cons.mp hfs
        rw [List.map_cons, slotAfter_cons, EngineFrame.restrict_of_not_shows hf, slotStep_nil,
          slotReap_none]
        exact ih hrest
  induction between with
  | nil => simp [slotAfter, stateAfter]
  | cons f fs ih =>
      obtain ⟨hf, hrest⟩ := List.forall_mem_cons.mp habsent
      rw [List.map_cons, slotAfter_cons, EngineFrame.restrict_of_not_shows hf, slotStep_nil,
        slotReap_some]
      by_cases hstale : t.IsStale f.context.index settings.staleFrames
      · rw [if_pos hstale, hnone fs hrest, if_pos ⟨f, by simp, hstale⟩]
      · rw [if_neg hstale, ih hrest]
        simp [hstale]

theorem exists_last_slotSightAll (settings : RiskSettings) (ctx : FrameContext) (key : TrackKey)
    (slot : Option Track) {ds : List Detection} (hds : ds ≠ []) :
    ∃ ss found d, slotSightAll settings ctx key slot ds =
      (some (slotSight settings ctx key found d).1,
        ss ++ [(slotSight settings ctx key found d).2]) := by
  induction ds generalizing slot with
  | nil => contradiction
  | cons d ds ih =>
      rw [slotSightAll_cons]
      by_cases hrest : ds = []
      · subst hrest
        exact ⟨[], slot, d, rfl⟩
      · obtain ⟨ss, found, last, hlast⟩ := ih (some (slotSight settings ctx key slot d).1) hrest
        exact ⟨(slotSight settings ctx key slot d).2 :: ss, found, last, by rw [hlast]; rfl⟩

/-- A track carries on what a sighting told: it was seen on its frame, and remembers its level and
its smoothed distance. -/
structure Track.LeftBy (t : Track) (s : Sighting) : Prop where
  lastSeen : t.lastSeen = s.frame
  level : t.gate.level = s.metrics.level
  distance : t.motion.current = some s.metrics.distance

theorem slotSight_leftBy (settings : RiskSettings) (ctx : FrameContext) (key : TrackKey)
    (slot : Option Track) (d : Detection) :
    (slotSight settings ctx key slot d).1.LeftBy (slotSight settings ctx key slot d).2 where
  lastSeen := slotSight_lastSeen d
  level := (tells_slotSight settings ctx key slot d).level.symm
  distance := rfl

/-- A frame that shows the object keeps the track that its last detection leaves. -/
theorem exists_slotStep_of_shows {f : EngineFrame} (hshows : f.Shows name id)
    (settings : RiskSettings) (key : TrackKey) (slot : Option Track) :
    ∃ t ss s, slotStep settings key slot (f.restrict (Detection.Shows name id)) =
      (some t, ss ++ [s]) ∧ s.frame = f.context.index ∧ t.LeftBy s := by
  obtain ⟨ss, found, d, hlast⟩ :=
    exists_last_slotSightAll settings f.context key slot hshows.restrict_ne_nil
  -- The frame that shows the object is the one its track was last seen on.
  have hkept : ¬(slotSight settings f.context key found d).1.IsStale f.context.index
      settings.staleFrames := by
    rw [Track.IsStale, slotSight_lastSeen]
    omega
  refine ⟨_, ss, _, ?_, rfl, slotSight_leftBy settings f.context key found d⟩
  rw [slotStep, EngineFrame.restrict_context, hlast]
  simp only [slotReap_some, if_neg hkept]

/-! ## The return -/

/-- The sighting is assessed as if the object had never been seen. -/
structure AssessedAfresh (settings : RiskSettings) (size : FrameSize) (s : Sighting) : Prop where
  metrics : s.metrics = firstMetrics settings size s.detection
  distance : s.metrics.distance = (BoxGeometry.measure settings size s.detection).distance
  closingRate : s.metrics.closingRate = 0
  level : s.metrics.level = s.candidate

/-- The sighting goes on with the average and the level that an earlier one has left. -/
structure GoesOnFrom (settings : RiskSettings) (size : FrameSize) (before s : Sighting) :
    Prop where
  distance : s.metrics.distance = DistanceAverage.smooth settings.emaAlpha
    (BoxGeometry.measure settings size s.detection).distance (some before.metrics.distance)
  previous : s.previous = before.metrics.level

theorem slotSight_afresh (ctx : FrameContext) (d : Detection) :
    AssessedAfresh settings ctx.size (slotSight settings ctx key none d).2 where
  metrics := assessDetection_fresh_metrics _ _ _
  distance := rfl
  closingRate := rfl
  level := HysteresisGate.level_step_initial _ _

theorem Track.LeftBy.goesOnFrom {t : Track} {before : Sighting} (hleft : t.LeftBy before)
    (ctx : FrameContext) (d : Detection) :
    GoesOnFrom settings ctx.size before (slotSight settings ctx key (some t) d).2 where
  distance := by
    rw [← hleft.distance]
    rfl
  previous := hleft.level

/-- The tracked object is shown at a place of a sequence of frames, and next at a later one. -/
structure ReturnsAt (frames : List EngineFrame) (name : String) (id : Int) (i j : Nat)
    (last back : EngineFrame) : Prop where
  lt : i < j
  last_at : frames[i]? = some last
  last_shows : last.Shows name id
  back_at : frames[j]? = some back
  back_shows : back.Shows name id
  absent : ∀ k f, i < k → k < j → frames[k]? = some f → ¬f.Shows name id

/-- What the first sighting after the return tells: it is a new track exactly if some frame in
between came too late for the old one. -/
structure ReturnTells (settings : RiskSettings) (frames : List EngineFrame) (i j : Nat)
    (last back : EngineFrame) (before s : Sighting) : Prop where
  isNew_iff : s.isNew = true ↔ ∃ k f, i < k ∧ k < j ∧ frames[k]? = some f ∧
    last.context.index + settings.staleFrames < f.context.index
  afresh : s.isNew = true → AssessedAfresh settings back.context.size s
  goesOn : s.isNew = false → GoesOnFrom settings back.context.size before s

variable {frames : List EngineFrame} {i j : Nat} {last back : EngineFrame}

def framesBetween (frames : List EngineFrame) (i j : Nat) : List EngineFrame :=
  (frames.take j).drop (i + 1)

theorem mem_framesBetween_iff {f : EngineFrame} :
    f ∈ framesBetween frames i j ↔ ∃ k, i < k ∧ k < j ∧ frames[k]? = some f := by
  rw [framesBetween, List.mem_iff_getElem?]
  simp only [List.getElem?_drop, List.getElem?_take, Option.ite_none_right_eq_some]
  constructor
  · rintro ⟨k, hlt, hf⟩
    exact ⟨i + 1 + k, by omega, hlt, hf⟩
  · rintro ⟨k, hi, hj, hf⟩
    obtain ⟨m, rfl⟩ : ∃ m, k = i + 1 + m := ⟨k - (i + 1), by omega⟩
    exact ⟨m, hj, hf⟩

theorem ReturnsAt.take_eq (hreturns : ReturnsAt frames name id i j last back) :
    frames.take j = frames.take i ++ last :: framesBetween frames i j := by
  have hlt := hreturns.lt
  have htake : (frames.take j).take (i + 1) = frames.take i ++ [last] := by
    rw [List.take_take, Nat.min_eq_left (by omega), List.take_add_one, hreturns.last_at,
      Option.toList_some]
  rw [← List.take_append_drop (i + 1) (frames.take j), htake, List.append_assoc,
    List.singleton_append, framesBetween]

/-- The slot before the return holds the track that the object left, unless a frame in between has
dropped it. -/
theorem ReturnsAt.slotBefore_eq (hreturns : ReturnsAt frames name id i j last back)
    (settings : RiskSettings) :
    ∃ t ss before,
      (slotStep settings (.object name id) (slotBefore settings name id frames i)
        (last.restrict (Detection.Shows name id))).2 = ss ++ [before] ∧
      t.LeftBy before ∧ before.frame = last.context.index ∧
      slotBefore settings name id frames j =
        if ∃ f ∈ framesBetween frames i j, t.IsStale f.context.index settings.staleFrames
          then none else some t := by
  obtain ⟨t, ss, before, hstep, hframe, hleft⟩ :=
    exists_slotStep_of_shows hreturns.last_shows settings (.object name id)
      (slotBefore settings name id frames i)
  refine ⟨t, ss, before, congrArg Prod.snd hstep, hleft, hframe, ?_⟩
  have habsent : ∀ f ∈ framesBetween frames i j, ¬f.Shows name id := by
    intro f hf
    obtain ⟨k, hi, hj, hk⟩ := mem_framesBetween_iff.mp hf
    exact hreturns.absent k f hi hj hk
  rw [slotBefore, hreturns.take_eq, List.map_append, List.map_cons, slotAfter_append,
    slotAfter_cons, ← slotBefore, hstep]
  exact slotAfter_absent habsent t

theorem exists_stale_between_iff {t : Track} :
    (∃ f ∈ framesBetween frames i j, t.IsStale f.context.index settings.staleFrames) ↔
      ∃ k f, i < k ∧ k < j ∧ frames[k]? = some f ∧
        t.lastSeen + settings.staleFrames < f.context.index := by
  simp only [mem_framesBetween_iff, Track.IsStale]
  constructor
  · rintro ⟨f, ⟨k, hi, hj, hk⟩, hstale⟩
    exact ⟨k, f, hi, hj, hk, by omega⟩
  · rintro ⟨k, f, hi, hj, hk, hlate⟩
    exact ⟨f, ⟨k, hi, hj, hk⟩, by omega⟩

theorem slotStep_head?_of_shows {f : EngineFrame} (hshows : f.Shows name id)
    (settings : RiskSettings) (key : TrackKey) (slot : Option Track) :
    ∃ d, (slotStep settings key slot (f.restrict (Detection.Shows name id))).2.head? =
      some (slotSight settings f.context key slot d).2 := by
  obtain ⟨d, ds, hds⟩ := List.exists_cons_of_ne_nil hshows.restrict_ne_nil
  exact ⟨d, by rw [slotStep, hds, slotSightAll_cons]; rfl⟩

/-- An object that returns is assessed as a first sighting just if some frame without it was handed
to the engine too late for its track; it goes on with its track otherwise. -/
theorem return_of_tracked_object
    {engine : RiskEngine} (hnew : RiskEngine.ofSettings settings = .ok engine)
    (hreturns : ReturnsAt frames name id i j last back) :
    ∃ left taken before s, (engine.run frames)[i]? = some left ∧
      (engine.run frames)[j]? = some taken ∧
      (left.report.sightings.filter fun s => s.detection.Shows name id).getLast? = some before ∧
      (taken.report.sightings.filter fun s => s.detection.Shows name id).head? = some s ∧
      ReturnTells settings frames i j last back before s := by
  obtain ⟨left, hleft, hlefts⟩ := sightings_of_getElem?_run hnew name id hreturns.last_at
  obtain ⟨taken, htaken, hsightings⟩ := sightings_of_getElem?_run hnew name id hreturns.back_at
  obtain ⟨t, ss, before, hlast, ht, hframe, hslot⟩ := hreturns.slotBefore_eq settings
  have hseen : t.lastSeen = last.context.index := ht.lastSeen.trans hframe
  have hbefore : (left.report.sightings.filter fun s =>
      s.detection.Shows name id).getLast? = some before := by
    rw [hlefts, hlast, List.getLast?_concat]
  rw [hslot] at hsightings
  by_cases hlate : ∃ f ∈ framesBetween frames i j,
      t.IsStale f.context.index settings.staleFrames
  · rw [if_pos hlate] at hsightings
    obtain ⟨d, hhead⟩ :=
      slotStep_head?_of_shows hreturns.back_shows settings (.object name id) none
    rw [← hsightings] at hhead
    rw [exists_stale_between_iff, hseen] at hlate
    refine ⟨left, taken, before, _, hleft, htaken, hbefore, hhead, ?_, ?_, ?_⟩
    · exact iff_of_true rfl hlate
    · exact fun _ => slotSight_afresh back.context d
    · exact fun hold => by contradiction
  · rw [if_neg hlate] at hsightings
    obtain ⟨d, hhead⟩ :=
      slotStep_head?_of_shows hreturns.back_shows settings (.object name id) (some t)
    rw [← hsightings] at hhead
    rw [exists_stale_between_iff, hseen] at hlate
    refine ⟨left, taken, before, _, hleft, htaken, hbefore, hhead, ?_, ?_, ?_⟩
    · exact iff_of_false (by simp [slotSight, assessDetection]) hlate
    · exact fun hfirst => by contradiction
    · exact fun _ => ht.goesOnFrom back.context d

/-- A person who was right ahead comes back aside, after two frames of which one was too late. -/
theorem return_of_tracked_object_forgotten :
    let ahead : Detection := ⟨1, 0, "Person", 1, ⟨260, 100, 380, 400⟩⟩
    let aside : Detection := ⟨1, 0, "Person", 1, ⟨20, 100, 60, 160⟩⟩
    let engine : RiskEngine := ⟨.default, .empty, 0⟩
    let last : EngineFrame := ⟨⟨⟨640, 480⟩, 0, 30⟩, [ahead]⟩
    let back : EngineFrame := ⟨⟨⟨640, 480⟩, 100, 30⟩, [aside]⟩
    let frames : List EngineFrame :=
      [last, ⟨⟨⟨640, 480⟩, 7, 30⟩, []⟩, ⟨⟨⟨640, 480⟩, 90, 30⟩, []⟩, back]
    RiskEngine.ofSettings .default = .ok engine ∧
      ReturnsAt frames "Person" 1 0 3 last back ∧
      ∃ left taken before s, (engine.run frames)[0]? = some left ∧
        (engine.run frames)[3]? = some taken ∧
        (left.report.sightings.filter fun s => s.detection.Shows "Person" 1).getLast? =
          some before ∧
        (taken.report.sightings.filter fun s => s.detection.Shows "Person" 1).head? = some s ∧
        ReturnTells .default frames 0 3 last back before s := by
  intro ahead aside engine last back frames
  have hnew : RiskEngine.ofSettings .default = .ok engine := RiskEngine.ofSettings_default
  have hreturns : ReturnsAt frames "Person" 1 0 3 last back := by
    refine ⟨by decide, rfl, ⟨ahead, by simp [last], by decide⟩, rfl,
      ⟨aside, by simp [back], by decide⟩, ?_⟩
    intro k f hlast hback hf
    obtain rfl | rfl : k = 1 ∨ k = 2 := by omega
    · cases hf
      simp [EngineFrame.Shows]
    · cases hf
      simp [EngineFrame.Shows]
  exact ⟨hnew, hreturns, return_of_tracked_object hnew hreturns⟩

/-- An object that was away for longer than its track is kept is assessed as a first sighting,
whichever frames were handed to the engine in between. -/
def StaleTracksRestart : Prop :=
  ∀ (settings : RiskSettings) (engine : RiskEngine) (name : String) (id : Int)
    (frames : List EngineFrame) (i j : Nat) (last back : EngineFrame) (taken : EngineStep)
    (s : Sighting),
    RiskEngine.ofSettings settings = .ok engine →
      frames.Pairwise (fun f g => f.context.index < g.context.index) →
        ReturnsAt frames name id i j last back →
          last.context.index + settings.staleFrames + 1 < back.context.index →
            (engine.run frames)[j]? = some taken →
              (taken.report.sightings.filter fun s => s.detection.Shows name id).head? = some s →
                AssessedAfresh settings back.context.size s

/-- With no frame in between the person aside still has the level of the person ahead. -/
theorem not_staleTracksRestart : ¬StaleTracksRestart := by
  intro hrestart
  let ahead : Detection := ⟨1, 0, "Person", 1, ⟨260, 100, 380, 400⟩⟩
  let aside : Detection := ⟨1, 0, "Person", 1, ⟨20, 100, 60, 160⟩⟩
  let engine : RiskEngine := ⟨.default, .empty, 0⟩
  let last : EngineFrame := ⟨⟨⟨640, 480⟩, 0, 30⟩, [ahead]⟩
  let back : EngineFrame := ⟨⟨⟨640, 480⟩, 100, 30⟩, [aside]⟩
  have hreturns : ReturnsAt [last, back] "Person" 1 0 1 last back :=
    ⟨by decide, rfl, ⟨ahead, by simp [last], by decide⟩, rfl, ⟨aside, by simp [back], by decide⟩,
      by omega⟩
  have hlevels : (((engine.run [last, back])[1]?.bind fun taken =>
      (taken.report.sightings.filter fun s => s.detection.Shows "Person" 1).head?).map fun s =>
        (s.metrics.level, s.candidate)) = some (.warn, .safe) := by
    decide +kernel
  obtain ⟨s, hfound, hpair⟩ := Option.map_eq_some_iff.mp hlevels
  obtain ⟨taken, htaken, hs⟩ := Option.bind_eq_some_iff.mp hfound
  have hafresh := hrestart .default engine "Person" 1 [last, back] 0 1 last back taken s
    RiskEngine.ofSettings_default (by simp [last, back]) hreturns (by decide) htaken hs
  obtain ⟨hwarn, hsafe⟩ := Prod.mk.inj hpair
  rw [hafresh.level, hsafe] at hwarn
  contradiction

end ObstacleWatch
