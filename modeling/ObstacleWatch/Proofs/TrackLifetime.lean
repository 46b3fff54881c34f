import Mathlib.Data.List.Basic
import ObstacleWatch.Proofs.GateHistory
import ObstacleWatch.Proofs.TrackProjection

/-!
# The lifetime of a track

The sightings of an object up to some point of a run are its history.  A history grows one sighting
at a time, each assessed against the track that the earlier ones left, and in between the track can
be forgotten.  The lifetime is the part of the history since the track was last started.  What a
track remembers is determined by its lifetime: its gate is the gate after the candidates, and its
streak counts at most the sightings that approached inside a band.
-/

namespace ObstacleWatch

/-! ## The last part of a list -/

section SinceLast

variable {α : Type} {p : α → Bool} {l earlier later : List α} {x t : α}

/-- The elements from the last one that passes a test on; all of them if none does. -/
def sinceLast (p : α → Bool) (l : List α) : List α :=
  l.foldl (fun kept x => if p x then [x] else kept ++ [x]) []

theorem sinceLast_concat (p : α → Bool) (l : List α) (x : α) :
    sinceLast p (l ++ [x]) = if p x then [x] else sinceLast p l ++ [x] := by
  simp [sinceLast]

theorem sinceLast_concat_of_pos (l : List α) (hx : p x = true) :
    sinceLast p (l ++ [x]) = [x] := by
  rw [sinceLast_concat, if_pos hx]

theorem sinceLast_concat_of_neg (l : List α) (hx : p x = false) :
    sinceLast p (l ++ [x]) = sinceLast p l ++ [x] := by
  rw [sinceLast_concat, hx]
  rfl

theorem sinceLast_concat_eq (p : α → Bool) (l : List α) (x : α) :
    ∃ init, sinceLast p (l ++ [x]) = init ++ [x] := by
  cases hx : p x with
  | true => exact ⟨[], sinceLast_concat_of_pos l hx⟩
  | false => exact ⟨sinceLast p l, sinceLast_concat_of_neg l hx⟩

theorem sinceLast_append_of_pos (l later : List α) (ht : p t = true) :
    sinceLast p (l ++ t :: later) = sinceLast p (t :: later) := by
  simp [sinceLast, ht]

theorem sinceLast_cons_of_pos (later : List α) (ht : p t = true) :
    ∃ top rest, sinceLast p (t :: later) = top :: rest ∧ p top = true := by
  induction later using List.reverseRecOn with
  | nil => exact ⟨t, [], by simp [sinceLast, ht], ht⟩
  | append_singleton later x ih =>
      rw [← List.cons_append, sinceLast_concat]
      obtain ⟨top, rest, hsince, htop⟩ := ih
      cases hx : p x with
      | true => exact ⟨x, [], by simp, hx⟩
      | false => exact ⟨top, rest ++ [x], by simp [hsince], htop⟩

/-- Up to any of its elements, the last part of a list is the last part of a shorter one. -/
theorem exists_prefix_of_sinceLast (hsplit : sinceLast p l = earlier ++ t :: later) :
    ∃ before, l = before ++ t :: later ∧ sinceLast p (before ++ [t]) = earlier ++ [t] := by
  -- The last part grows at its end or starts over there, so the induction is from the end.
  induction l using List.reverseRecOn generalizing later with
  | nil => simp [sinceLast] at hsplit
  | append_singleton l x ih =>
      rcases List.eq_nil_or_concat' later with rfl | ⟨later, y, rfl⟩
      · obtain ⟨init, hinit⟩ := sinceLast_concat_eq p l x
        have hends := hsplit.symm.trans hinit
        obtain ⟨rfl, hxt⟩ := List.append_inj' hends rfl
        obtain rfl : t = x := by simpa using hxt
        exact ⟨l, rfl, hsplit⟩
      · cases hx : p x with
        | true =>
            rw [sinceLast_concat_of_pos l hx] at hsplit
            have hlength := congrArg List.length hsplit
            simp only [List.length_append, List.length_cons, List.length_nil] at hlength
            omega
        | false =>
            rw [sinceLast_concat_of_neg l hx, ← List.cons_append, ← List.append_assoc] at hsplit
            obtain ⟨hinit, hxy⟩ := List.append_inj' hsplit rfl
            obtain rfl : x = y := by simpa using hxy
            obtain ⟨before, rfl, hbefore⟩ := ih hinit
            exact ⟨before, by simp, hbefore⟩

end SinceLast

/-! ## Histories -/

namespace Sighting

def view (s : Sighting) : ApproachView :=
  ⟨s.metrics.inCenter, s.metrics.inNearCenter, s.metrics.megaClose, s.streak, s.metrics.pttc⟩

def ApproachesInBand (s : Sighting) : Prop :=
  s.metrics.approaching ∧ (s.metrics.inCenter ∨ s.metrics.inNearCenter)

instance : DecidablePred ApproachesInBand :=
  fun _ => inferInstanceAs (Decidable (_ ∧ _))

end Sighting

/-- The sightings since the track was last started. -/
def lifetime (ss : List Sighting) : List Sighting :=
  sinceLast (·.isNew) ss

namespace RiskEngine

/-- The sightings of one key along a run. -/
def sightingsOf (e : RiskEngine) (key : TrackKey) (frames : List EngineFrame) : List Sighting :=
  (e.run frames).flatMap fun taken => taken.report.sightings.filter fun s => s.key = key

end RiskEngine

/-- The sightings of an object are its detections, each with the metrics reported for it. -/
theorem RiskEngine.sightingsOf_reported (e : RiskEngine) (name : String) (id : Int)
    (frames : List EngineFrame) :
    (e.sightingsOf (.object name id) frames).map (fun s => (s.detection, s.metrics)) =
      (e.run frames).flatMap fun taken =>
        (taken.frame.detections.zip taken.report.metrics).filter fun pair =>
          pair.1.Shows name id := by
  rw [sightingsOf, List.map_flatMap]
  apply List.flatMap_congr
  intro taken hmem
  rw [filter_key_eq name id hmem, reported_of_mem_run hmem, List.filter_map]
  rfl

theorem RiskEngine.sightingsOf_cons (e : RiskEngine) (key : TrackKey) (f : EngineFrame)
    (fs : List EngineFrame) :
    e.sightingsOf key (f :: fs) =
      ((e.step f).report.sightings.filter fun s => s.key = key) ++
        (e.step f).engine.sightingsOf key fs := by
  rfl

/-- The histories of a key, each with what the slot of the key holds after it. -/
inductive History (settings : RiskSettings) (key : TrackKey) :
    List Sighting → Option Track → Prop where
  | start : History settings key [] none
  | sight {past : List Sighting} {slot : Option Track} (ctx : FrameContext) (d : Detection) :
      History settings key past slot →
        History settings key (past ++ [(slotSight settings ctx key slot d).2])
          (some (slotSight settings ctx key slot d).1)
  | forget {past : List Sighting} {slot : Option Track} :
      History settings key past slot → History settings key past none

variable {settings : RiskSettings} {ctx : FrameContext} {key : TrackKey} {slot : Option Track}
  {past all life : List Sighting} {s : Sighting} {t : Track} {d : Detection}

namespace History

theorem after_reap (hpast : History settings key past slot) (frame : Nat) :
    History settings key past (slotReap settings frame slot) := by
  cases slot with
  | none =>
      rw [slotReap_none]
      exact hpast
  | some t =>
      rw [slotReap_some]
      split
      · exact hpast.forget
      · exact hpast

theorem after_sightings (hpast : History settings key past slot) (ctx : FrameContext)
    (ds : List Detection) :
    History settings key (past ++ (slotSightAll settings ctx key slot ds).2)
      (slotSightAll settings ctx key slot ds).1 := by
  induction ds generalizing past slot with
  | nil => simpa [slotSightAll] using hpast
  | cons d ds ih =>
      have hrest := ih (hpast.sight ctx d)
      rw [slotSightAll_cons]
      rwa [List.append_assoc] at hrest

theorem after_run (hpast : History settings key past slot) (frames : List EngineFrame) :
    ∃ last, History settings key
      (past ++ (slotRun settings key slot frames).flatMap (·.2)) last := by
  induction frames generalizing past slot with
  | nil => exact ⟨slot, by simpa [slotRun] using hpast⟩
  | cons f fs ih =>
      have hframe := (hpast.after_sightings f.context f.detections).after_reap f.context.index
      obtain ⟨last, hlast⟩ := ih hframe
      rw [List.append_assoc] at hlast
      exact ⟨last, hlast⟩

end History

/-- The slot after each frame is what the sightings so far have left. -/
theorem History.at_slotRun (hpast : History settings key past slot) {frames : List EngineFrame}
    {n : Nat} {outcome : Option Track × List Sighting}
    (hn : (slotRun settings key slot frames)[n]? = some outcome) :
    History settings key
      (past ++ ((slotRun settings key slot frames).take (n + 1)).flatMap (·.2)) outcome.1 := by
  induction frames generalizing past slot n with
  | nil => simp [slotRun] at hn
  | cons f fs ih =>
      have hframe : History settings key (past ++ (slotStep settings key slot f).2)
          (slotStep settings key slot f).1 :=
        (hpast.after_sightings f.context f.detections).after_reap f.context.index
      rw [slotRun] at hn ⊢
      cases n with
      | zero =>
          rw [List.getElem?_cons_zero, Option.some.injEq] at hn
          subst hn
          simpa using hframe
      | succ n =>
          rw [List.getElem?_cons_succ] at hn
          have hrest := ih hframe hn
          rwa [List.append_assoc] at hrest

/-- What a run shows of a tracked object is a history of its key. -/
theorem RiskEngine.exists_history
    {engine : RiskEngine} (hnew : ofSettings settings = .ok engine) (name : String) (id : Int)
    (frames : List EngineFrame) :
    ∃ last, History settings (.object name id)
      (engine.sightingsOf (.object name id) frames) last := by
  obtain ⟨-, rfl⟩ := ofSettings_eq_ok_iff.mp hnew
  have hrun := run_project name id ⟨settings, .empty, 0⟩ frames
  have hstart : History settings (.object name id) [] none := .start
  obtain ⟨last, hlast⟩ :=
    hstart.after_run (frames.map fun f => f.restrict (Detection.Shows name id))
  refine ⟨last, ?_⟩
  rw [TrackMap.get?_empty] at hrun
  rw [← hrun, List.flatMap_map] at hlast
  exact hlast

theorem RiskEngine.take_run (e : RiskEngine) (frames : List EngineFrame) (n : Nat) :
    (e.run frames).take n = e.run (frames.take n) := by
  induction frames generalizing e n with
  | nil => simp
  | cons f fs ih =>
      cases n with
      | zero => rfl
      | succ n => rw [run_cons, List.take_succ_cons, ih, List.take_succ_cons, run_cons]

/-- What the engine has of a tracked object after a frame is left by its sightings so far. -/
theorem RiskEngine.history_of_getElem?_run
    {engine : RiskEngine} (hnew : ofSettings settings = .ok engine) (name : String) (id : Int)
    {frames : List EngineFrame} {n : Nat} {taken : EngineStep}
    (hn : (engine.run frames)[n]? = some taken) :
    History settings (.object name id)
      (engine.sightingsOf (.object name id) (frames.take (n + 1)))
      (taken.engine.tracks.get? (.object name id)) := by
  obtain ⟨-, rfl⟩ := ofSettings_eq_ok_iff.mp hnew
  have hrun := run_project name id ⟨settings, .empty, 0⟩ frames
  rw [TrackMap.get?_empty] at hrun
  have hslot := congrArg (·[n]?) hrun
  simp only [List.getElem?_map, hn, Option.map_some] at hslot
  have hstart : History settings (.object name id) [] none := .start
  have hhistory := hstart.at_slotRun hslot.symm
  rw [← hrun, ← List.map_take, List.flatMap_map, take_run] at hhistory
  exact hhistory

/-- What every started track has and every further sighting keeps, a track has of its lifetime. -/
theorem History.of_lifetime
    {P : List Sighting → Track → Prop}
    (hfirst : ∀ ctx d, P [(slotSight settings ctx key none d).2]
      (slotSight settings ctx key none d).1)
    (hnext : ∀ life t ctx d, P life t →
      P (life ++ [(slotSight settings ctx key (some t) d).2])
        (slotSight settings ctx key (some t) d).1)
    (hpast : History settings key past slot) (hslot : slot = some t) :
    P (lifetime past) t := by
  induction hpast generalizing t with
  | start => contradiction
  | forget => contradiction
  | @sight past slot ctx d hpast ih =>
      obtain rfl := Option.some.inj hslot
      cases slot with
      | none =>
          rw [lifetime, sinceLast_concat_of_pos past rfl]
          exact hfirst ctx d
      | some t =>
          rw [lifetime, sinceLast_concat_of_neg past rfl]
          exact hnext _ t ctx d (ih rfl)

/-! ## What a track remembers -/

structure Remembers (settings : RiskSettings) (life : List Sighting) (t : Track) : Prop where
  started : ∃ first rest, life = first :: rest ∧ first.isNew = true ∧ ∀ s ∈ rest, s.isNew = false
  gate : t.gate = .after settings.hysteresisFrames (life.map (·.candidate))
  streak : t.streak ≤ life.countP fun s => s.ApproachesInBand
  candidates : ∀ s ∈ life, s.candidate = candidateLevel settings s.view

/-- A sighting tells what its track was left with. -/
structure Tells (settings : RiskSettings) (s : Sighting) (t : Track) : Prop where
  candidate : s.candidate = candidateLevel settings s.view
  level : s.metrics.level = t.gate.level
  streak : s.streak = t.streak
  raised : s.transition = .escalated → t.gate = ⟨s.candidate, settings.hysteresisFrames⟩

theorem tells_slotSight (settings : RiskSettings) (ctx : FrameContext) (key : TrackKey)
    (slot : Option Track) (d : Detection) :
    Tells settings (slotSight settings ctx key slot d).2
      (slotSight settings ctx key slot d).1 where
  candidate := by rfl
  level := by rfl
  streak := by rfl
  raised := by
    intro hraised
    have hlt := HysteresisGate.lt_of_step_escalated hraised
    exact congrArg Prod.fst (HysteresisGate.step_of_lt settings.hysteresisFrames hlt)

theorem slotSight_gate (settings : RiskSettings) (ctx : FrameContext) (key : TrackKey)
    (slot : Option Track) (d : Detection) :
    (slotSight settings ctx key slot d).1.gate =
      ((Track.found ctx.index slot).gate.step (slotSight settings ctx key slot d).2.candidate
        settings.hysteresisFrames).1 := by
  rfl

theorem slotSight_streak_le (settings : RiskSettings) (ctx : FrameContext) (key : TrackKey)
    (slot : Option Track) (d : Detection) :
    (slotSight settings ctx key slot d).1.streak ≤
      (Track.found ctx.index slot).streak +
        if (slotSight settings ctx key slot d).2.ApproachesInBand then 1 else 0 := by
  have hstreak : (slotSight settings ctx key slot d).1.streak =
      nextStreak (Track.found ctx.index slot).streak
        (slotSight settings ctx key slot d).2.metrics.approaching
        (slotSight settings ctx key slot d).2.metrics.inCenter
        (slotSight settings ctx key slot d).2.metrics.inNearCenter := by
    rfl
  rw [hstreak, nextStreak]
  by_cases happroaches : (slotSight settings ctx key slot d).2.ApproachesInBand
  · rw [if_pos happroaches]
    split <;> omega
  · have hband : ((slotSight settings ctx key slot d).2.metrics.approaching &&
        ((slotSight settings ctx key slot d).2.metrics.inCenter ||
          (slotSight settings ctx key slot d).2.metrics.inNearCenter)) = false := by
      simpa [Sighting.ApproachesInBand] using happroaches
    rw [if_neg happroaches, hband]
    exact Nat.sub_le _ 1

theorem remembers_first (settings : RiskSettings) (ctx : FrameContext) (key : TrackKey)
    (d : Detection) :
    Remembers settings [(slotSight settings ctx key none d).2]
      (slotSight settings ctx key none d).1 where
  started := ⟨_, [], rfl, rfl, by simp⟩
  gate := slotSight_gate settings ctx key none d
  streak := by
    have hle := slotSight_streak_le settings ctx key none d
    simpa [List.countP_singleton, Track.found, Track.fresh] using hle
  candidates := by simpa using (tells_slotSight settings ctx key none d).candidate

/-- Only its first sighting starts a lifetime, so a sighting that finds the track continues it. -/
theorem started_concat
    (hstarted : ∃ first rest, life = first :: rest ∧ first.isNew = true ∧
      ∀ s ∈ rest, s.isNew = false) (hs : s.isNew = false) :
    ∃ first rest, life ++ [s] = first :: rest ∧ first.isNew = true ∧
      ∀ s ∈ rest, s.isNew = false := by
  obtain ⟨first, rest, rfl, hfirst, hrest⟩ := hstarted
  refine ⟨first, rest ++ [s], rfl, hfirst, ?_⟩
  exact List.forall_mem_append.mpr ⟨hrest, List.forall_mem_singleton.mpr hs⟩

theorem Remembers.sight (hlife : Remembers settings life t) (ctx : FrameContext) (key : TrackKey)
    (d : Detection) :
    Remembers settings (life ++ [(slotSight settings ctx key (some t) d).2])
      (slotSight settings ctx key (some t) d).1 where
  started := started_concat hlife.started rfl
  gate := by
    rw [List.map_append, List.map_singleton, HysteresisGate.after_concat, ← hlife.gate]
    exact slotSight_gate settings ctx key (some t) d
  streak := by
    have hle := slotSight_streak_le settings ctx key (some t) d
    have hbefore : (Track.found ctx.index (some t)).streak ≤ _ := hlife.streak
    rw [List.countP_append, List.countP_singleton]
    simp only [decide_eq_true_eq]
    omega
  candidates := by
    have hlast := (tells_slotSight settings ctx key (some t) d).candidate
    exact List.forall_mem_append.mpr ⟨hlife.candidates, List.forall_mem_singleton.mpr hlast⟩

namespace History

theorem remembers (hpast : History settings key past (some t)) :
    Remembers settings (lifetime past) t :=
  of_lifetime (fun ctx d => remembers_first settings ctx key d)
    (fun _ _ ctx d hlife => hlife.sight ctx key d) hpast rfl

/-- Every sighting of a history is assessed against what the history before it left. -/
theorem exists_sight_of_prefix
    (hall : History settings key all slot) (hfront : past ++ [s] <+: all) :
    ∃ found ctx d, History settings key past found ∧
      s = (slotSight settings ctx key found d).2 := by
  induction hall with
  | start => simp at hfront
  | forget _ ih => exact ih hfront
  | @sight before slot ctx d hbefore ih =>
      rcases List.prefix_concat_iff.mp hfront with hwhole | hearlier
      · obtain ⟨rfl, hlast⟩ := List.append_inj' hwhole rfl
        exact ⟨slot, ctx, d, hbefore, by simpa using hlast⟩
      · exact ih hearlier

theorem exists_track_of_prefix
    (hall : History settings key all slot) (hfront : past ++ [s] <+: all) :
    ∃ t, History settings key (past ++ [s]) (some t) ∧ Tells settings s t := by
  obtain ⟨found, ctx, d, hpast, rfl⟩ := hall.exists_sight_of_prefix hfront
  exact ⟨_, hpast.sight ctx d, tells_slotSight settings ctx key found d⟩

theorem exists_track_of_lifetime
    {earlier later : List Sighting} {u : Sighting} (hall : History settings key all slot)
    (hfront : past <+: all) (hsplit : lifetime past = earlier ++ u :: later) :
    ∃ t, Remembers settings (earlier ++ [u]) t ∧ Tells settings u t := by
  obtain ⟨before, rfl, hlifetime⟩ := exists_prefix_of_sinceLast hsplit
  have hbefore : before ++ [u] <+: all := by
    refine List.IsPrefix.trans ⟨later, ?_⟩ hfront
    rw [List.append_assoc, List.singleton_append]
  obtain ⟨t, hpast, htells⟩ := hall.exists_track_of_prefix hbefore
  have hlife := hpast.remembers
  rw [lifetime, hlifetime] at hlife
  exact ⟨t, hlife, htells⟩

theorem candidate_le_level
    (hall : History settings key all slot) (hfront : past ++ [s] <+: all) :
    s.candidate ≤ s.metrics.level := by
  obtain ⟨track, hpast, htells⟩ := hall.exists_track_of_prefix hfront
  obtain ⟨init, hlast⟩ := sinceLast_concat_eq (·.isNew) past s
  have hgate := hpast.remembers.gate
  rw [lifetime, hlast, List.map_append, List.map_singleton, HysteresisGate.after_concat] at hgate
  rw [htells.level, hgate]
  exact HysteresisGate.le_level_step _ _ _

end History

end ObstacleWatch
