import Mathlib.Order.Bounds.Basic
import ObstacleWatch.Proofs.PipelineRun
import ObstacleWatch.Proofs.TrackProjection
import ObstacleWatch.Proofs.UntrackedObjects

/-!
# The window of remembered objects

Between frames the engine has a track of a tracked object exactly if the object was shown on one of
the last frames, the stale frames and one more.  The track says which was the latest of them.  The
window is kept by every frame: a detection of the object marks the track as seen now, and the end of
the frame drops the track if its frame has left the window.
-/

namespace ObstacleWatch

variable {name : String} {id : Int}

/-! ## Where an object is shown -/

/-- Some detection of the frame shows the tracked object. -/
def Frame.Shows (f : Frame) (name : String) (id : Int) : Prop :=
  ∃ d ∈ f.detections, d.Shows name id

/-- The tracked object is shown on the frame at a place of a sequence. -/
def ShownAt (frames : List Frame) (name : String) (id : Int) (n : Nat) : Prop :=
  ∃ f ∈ frames[n]?, f.Shows name id

section ShownAt

variable {frames past : List Frame} {f : Frame} {n : Nat}

theorem ShownAt.lt_length (hshown : ShownAt frames name id n) : n < frames.length := by
  obtain ⟨f, hf, -⟩ := hshown
  exact (List.getElem?_eq_some_iff.mp hf).1

theorem ShownAt.nonneg (hshown : ShownAt frames name id n) : 0 ≤ id := by
  obtain ⟨f, -, d, -, htracked, -, rfl⟩ := hshown
  exact htracked

theorem shownAt_take {k : Nat} :
    ShownAt (frames.take k) name id n ↔ n < k ∧ ShownAt frames name id n := by
  rw [ShownAt, ShownAt, List.getElem?_take]
  split
  · next hlt => simp [hlt]
  · next hnot => simp [hnot]

theorem shownAt_concat :
    ShownAt (past ++ [f]) name id n ↔
      ShownAt past name id n ∨ n = past.length ∧ f.Shows name id := by
  rcases Nat.lt_trichotomy n past.length with hlt | rfl | hgt
  · rw [ShownAt, List.getElem?_append_left hlt]
    exact ⟨Or.inl, fun h => h.resolve_right fun hlast => Nat.ne_of_lt hlt hlast.1⟩
  · simp [ShownAt]
  · have hnone : (past ++ [f])[n]? = none := by simp; omega
    have hpast : ¬ShownAt past name id n := fun hshown => by
      have hlt := hshown.lt_length
      omega
    constructor
    · rintro ⟨g, hg, -⟩
      rw [hnone] at hg
      contradiction
    · rintro (hshown | ⟨heq, -⟩)
      · exact absurd hshown hpast
      · omega

end ShownAt

/-! ## The slot of an object on one frame -/

section Slot

variable {settings : RiskSettings} {ctx : FrameContext} {key : TrackKey} {slot : Option Track}

theorem slotSight_lastSeen (d : Detection) :
    (slotSight settings ctx key slot d).1.lastSeen = ctx.index := by
  cases slot <;> rfl

/-- Detections of the object leave a track that was seen on their frame. -/
theorem exists_slotSightAll_eq_some (settings : RiskSettings) (ctx : FrameContext)
    (key : TrackKey) (slot : Option Track) {ds : List Detection} (hds : ds ≠ []) :
    ∃ t, (slotSightAll settings ctx key slot ds).1 = some t ∧ t.lastSeen = ctx.index := by
  induction ds generalizing slot with
  | nil => contradiction
  | cons d ds ih =>
      rw [slotSightAll_cons]
      by_cases hrest : ds = []
      · subst hrest
        exact ⟨_, rfl, slotSight_lastSeen d⟩
      · exact ih _ hrest

theorem isSome_slotSightAll_iff {ds : List Detection} :
    (slotSightAll settings ctx key slot ds).1.isSome ↔ ds ≠ [] ∨ slot.isSome := by
  by_cases hds : ds = []
  · subst hds
    simp [slotSightAll]
  · obtain ⟨t, ht, -⟩ := exists_slotSightAll_eq_some settings ctx key slot hds
    simp [ht, hds]

end Slot

/-- What the slot of a tracked object holds after some frames: a track if the object was shown on
one of the last frames, and the latest of them in it. -/
structure SlotWindow (staleFrames : Nat) (frames : List Frame) (name : String) (id : Int)
    (slot : Option Track) : Prop where
  latest : ∀ t ∈ slot, IsGreatest {n | ShownAt frames name id n} t.lastSeen
  held_iff : slot.isSome ↔ ∃ n, frames.length ≤ n + staleFrames + 1 ∧ ShownAt frames name id n

namespace SlotWindow

variable {settings : RiskSettings} {past : List Frame} {slot : Option Track} {f : Frame}

theorem nil (staleFrames : Nat) : SlotWindow staleFrames [] name id none where
  latest := by simp
  held_iff := by simp [ShownAt]

/-- A frame that shows the object leaves its track, seen just now. -/
theorem shown (hshows : f.Shows name id) {t : Track} (ht : t.lastSeen = past.length) :
    SlotWindow settings.staleFrames (past ++ [f]) name id
      (slotReap settings past.length (some t)) := by
  have hlast : ShownAt (past ++ [f]) name id past.length :=
    shownAt_concat.mpr (Or.inr ⟨rfl, hshows⟩)
  have hfresh : ¬t.IsStale past.length settings.staleFrames := by
    rw [Track.IsStale, ht]
    omega
  rw [slotReap_some, if_neg hfresh]
  constructor
  · intro other hother
    obtain rfl := Option.some.inj hother
    rw [ht]
    refine ⟨hlast, ?_⟩
    intro n hn
    have hlt := ShownAt.lt_length hn
    rw [List.length_append, List.length_singleton] at hlt
    exact Nat.le_of_lt_succ hlt
  · refine iff_of_true rfl ⟨past.length, ?_, hlast⟩
    rw [List.length_append, List.length_singleton]
    omega

/-- A frame without the object drops its track if the frame of the track has left the window. -/
theorem absent (hwindow : SlotWindow settings.staleFrames past name id slot)
    (habsent : ¬f.Shows name id) :
    SlotWindow settings.staleFrames (past ++ [f]) name id (slotReap settings past.length slot) := by
  have hsame : ∀ n, ShownAt (past ++ [f]) name id n ↔ ShownAt past name id n := by
    intro n
    rw [shownAt_concat]
    exact or_iff_left fun hlast => habsent hlast.2
  cases slot with
  | none =>
      rw [slotReap_none]
      -- The window only moves on, so it holds no frame now that it did not hold before.
      refine ⟨by simp, iff_of_false (by simp) ?_⟩
      rintro ⟨n, hlength, hshown⟩
      rw [List.length_append, List.length_singleton] at hlength
      have hheld := hwindow.held_iff.mpr ⟨n, by omega, (hsame n).mp hshown⟩
      contradiction
  | some t =>
      obtain ⟨hseen, hlatest⟩ := hwindow.latest t rfl
      rw [slotReap_some]
      split
      · next hstale =>
          refine ⟨by simp, iff_of_false (by simp) ?_⟩
          rintro ⟨n, hlength, hshown⟩
          have hle : n ≤ t.lastSeen := hlatest ((hsame n).mp hshown)
          rw [Track.IsStale] at hstale
          rw [List.length_append, List.length_singleton] at hlength
          omega
      · next hkept =>
          rw [Track.IsStale] at hkept
          constructor
          · intro other hother
            obtain rfl := Option.some.inj hother
            exact ⟨(hsame _).mpr hseen, fun n hn => hlatest ((hsame n).mp hn)⟩
          · refine iff_of_true rfl ⟨t.lastSeen, ?_, (hsame _).mpr hseen⟩
            rw [List.length_append, List.length_singleton]
            omega

theorem step (hwindow : SlotWindow settings.staleFrames past name id slot) {ctx : FrameContext}
    (hindex : ctx.index = past.length) (key : TrackKey) :
    SlotWindow settings.staleFrames (past ++ [f]) name id
      (slotStep settings key slot
        ((EngineFrame.mk ctx f.detections).restrict (Detection.Shows name id))).1 := by
  have hstep : (slotStep settings key slot
      ((EngineFrame.mk ctx f.detections).restrict (Detection.Shows name id))).1 =
        slotReap settings ctx.index
          (slotSightAll settings ctx key slot
            (f.detections.filter fun d => d.Shows name id)).1 := by
    rfl
  rw [hstep, hindex]
  by_cases hshows : f.Shows name id
  · have hds : f.detections.filter (fun d => d.Shows name id) ≠ [] := by
      obtain ⟨d, hmem, hd⟩ := hshows
      exact List.ne_nil_of_mem (List.mem_filter.mpr ⟨hmem, decide_eq_true hd⟩)
    obtain ⟨t, hleft, hseen⟩ := exists_slotSightAll_eq_some settings ctx key slot hds
    rw [hleft]
    exact shown hshows (hseen.trans hindex)
  · have hnone : f.detections.filter (fun d => d.Shows name id) = [] := by
      rw [List.filter_eq_nil_iff]
      intro d hmem hd
      exact hshows ⟨d, hmem, of_decide_eq_true hd⟩
    rw [hnone]
    exact hwindow.absent hshows

/-- The window after the frames before a place, in terms of all frames. -/
theorem held_take_iff {staleFrames n : Nat} {frames : List Frame} (hn : n ≤ frames.length)
    (hwindow : SlotWindow staleFrames (frames.take n) name id slot) :
    slot.isSome ↔ ∃ m < n, n ≤ m + staleFrames + 1 ∧ ShownAt frames name id m := by
  rw [hwindow.held_iff, List.length_take, Nat.min_eq_left hn]
  apply exists_congr
  intro m
  rw [shownAt_take]
  exact and_left_comm

theorem latest_take {staleFrames n : Nat} {frames : List Frame} {t : Track}
    (hwindow : SlotWindow staleFrames (frames.take n) name id (some t)) :
    IsGreatest {m | m < n ∧ ShownAt frames name id m} t.lastSeen := by
  have hlatest := hwindow.latest t rfl
  simp only [shownAt_take] at hlatest
  exact hlatest

end SlotWindow

/-! ## Along a run -/

namespace Pipeline

theorem settings_after (p : Pipeline) (past : List Frame) :
    (p.after past).engine.settings = p.engine.settings := by
  induction past using List.reverseRecOn with
  | nil => rfl
  | append_singleton past f ih =>
      rw [after_concat, step_engine, RiskEngine.step_settings, ih]

variable (settings : RiskSettings) (fpsSource : FpsSource) (capacity : Nat)

theorem allTracked_after (past : List Frame) :
    ((new settings fpsSource capacity).after past).engine.tracks.AllTracked := by
  induction past using List.reverseRecOn with
  | nil => exact TrackMap.allTracked_empty
  | append_singleton past f ih =>
      rw [after_concat, step_engine]
      exact RiskEngine.allTracked_step ih _

theorem slotWindow_after (past : List Frame) (name : String) (id : Int) :
    SlotWindow settings.staleFrames past name id
      (((new settings fpsSource capacity).after past).engine.tracks.get? (.object name id)) := by
  induction past using List.reverseRecOn with
  | nil => exact .nil _
  | append_singleton past f ih =>
      let before := (new settings fpsSource capacity).after past
      have hsettings : before.engine.settings = settings := settings_after _ past
      have hindex : (before.engineFrame f).context.index = past.length :=
        (nextFrame_after _ past).trans (Nat.zero_add _)
      have hslot :
          (before.engine.step (before.engineFrame f)).engine.tracks.get? (.object name id) =
            (slotStep settings (.object name id) (before.engine.tracks.get? (.object name id))
              ((before.engineFrame f).restrict (Detection.Shows name id))).1 := by
        rw [← hsettings]
        exact congrArg Prod.fst (step_project name id before.engine (before.engineFrame f))
      rw [after_concat, step_engine, hslot]
      exact ih.step hindex _

end Pipeline

/-- The tracks after the frame at a place of a sequence are those of the objects shown on that frame
or at most the stale frames before it, each with the latest such frame. -/
structure TracksHeld (staleFrames : Nat) (frames : List Frame) (n : Nat) (tracks : TrackMap) :
    Prop where
  held : ∀ name id, (tracks.get? (.object name id)).isSome ↔
    ∃ m ≤ n, n ≤ m + staleFrames ∧ ShownAt frames name id m
  latest : ∀ name id, ∀ t ∈ tracks.get? (.object name id),
    IsGreatest {m | m ≤ n ∧ ShownAt frames name id m} t.lastSeen
  noEphemeral : ∀ key, key.isEphemeral → tracks.get? key = none

theorem Pipeline.tracksHeld_after
    (settings : RiskSettings) (fpsSource : FpsSource) (capacity : Nat) {frames : List Frame}
    {n : Nat} (hn : n + 1 ≤ frames.length) :
    TracksHeld settings.staleFrames frames n
      ((new settings fpsSource capacity).after (frames.take (n + 1))).engine.tracks := by
  have hwindow := slotWindow_after settings fpsSource capacity (frames.take (n + 1))
  constructor
  · intro name id
    refine ((hwindow name id).held_take_iff hn).trans (exists_congr fun m => ?_)
    rw [Nat.lt_succ_iff, Nat.add_le_add_iff_right]
  · intro name id t ht
    have hobject := hwindow name id
    rw [ht] at hobject
    simpa only [Nat.lt_succ_iff] using hobject.latest_take
  · intro key hkey
    exact (allTracked_after _ _ _ _).get?_of_isEphemeral hkey

end ObstacleWatch
