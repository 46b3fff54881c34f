import Mathlib.Data.List.Perm.Subperm
import ObstacleWatch.Proofs.TrackLifetime

/-!
# The delay of a step down

A step down waits until the hold of the last raise is used up.  What uses up the hold is detections
with a lower candidate, not frames: an object that is detected more than once on a frame uses it up
sooner.  The rule below is exact.  For an object that is detected at most once on a frame it gives
back the delay in frames.
-/

namespace ObstacleWatch

/-! ## The order of the frames -/

section Frames

variable {e : RiskEngine} {key : TrackKey} {frames : List EngineFrame} {s : Sighting}

theorem exists_frame_of_mem_sightingsOf (hmem : s ∈ e.sightingsOf key frames) :
    ∃ f ∈ frames, s.frame = f.context.index := by
  induction frames generalizing e with
  | nil => simp [RiskEngine.sightingsOf] at hmem
  | cons f fs ih =>
      rw [RiskEngine.sightingsOf_cons] at hmem
      rcases List.mem_append.mp hmem with hhead | hrest
      · exact ⟨f, List.mem_cons_self,
          RiskEngine.frame_of_mem_step (List.mem_of_mem_filter hhead)⟩
      · obtain ⟨g, hg, hframe⟩ := ih hrest
        exact ⟨g, List.mem_cons_of_mem f hg, hframe⟩

theorem sightingsOf_sorted
    (hsorted : frames.Pairwise fun f g => f.context.index ≤ g.context.index) :
    (e.sightingsOf key frames).Pairwise fun s t => s.frame ≤ t.frame := by
  induction frames generalizing e with
  | nil => simp [RiskEngine.sightingsOf]
  | cons f fs ih =>
      have hhead : ∀ s ∈ (e.step f).report.sightings.filter fun s => s.key = key,
          s.frame = f.context.index :=
        fun s hmem => RiskEngine.frame_of_mem_step (List.mem_of_mem_filter hmem)
      obtain ⟨hfirst, hrest⟩ := List.pairwise_cons.mp hsorted
      rw [RiskEngine.sightingsOf_cons, List.pairwise_append]
      refine ⟨?_, ih hrest, ?_⟩
      · apply List.pairwise_of_forall_mem_list
        intro s hs t ht
        exact Nat.le_of_eq ((hhead s hs).trans (hhead t ht).symm)
      · intro s hs t ht
        obtain ⟨g, hg, hframe⟩ := exists_frame_of_mem_sightingsOf ht
        rw [hhead s hs, hframe]
        exact hfirst g hg

end Frames

/-! ## Since the last raise -/

namespace Sighting

/-- The level was raised on this sighting. -/
def Raises (s : Sighting) : Prop :=
  s.transition = .escalated

instance : DecidablePred Raises :=
  fun s => inferInstanceAs (Decidable (s.transition = .escalated))

end Sighting

/-- The sightings since the level was last raised. -/
def sinceRaise (ss : List Sighting) : List Sighting :=
  sinceLast (fun s => s.Raises) ss

/-- How many of some sightings had a candidate below a level. -/
def lowerCount (level : DangerLevel) (ss : List Sighting) : Nat :=
  ss.countP fun s => s.candidate < level

theorem lowerCount_concat (level : DangerLevel) (ss : List Sighting) (s : Sighting) :
    lowerCount level (ss ++ [s]) =
      lowerCount level ss + if s.candidate < level then 1 else 0 := by
  rw [lowerCount, List.countP_append, List.countP_singleton]
  simp only [decide_eq_true_eq, lowerCount]

/-- If the level was raised in a lifetime, the gate is one raised to the level of the last raise. -/
def GateSinceRaise (fullHold : Nat) (life : List Sighting) (last : DangerLevel)
    (g : HysteresisGate) : Prop :=
  ∀ top rest, sinceRaise life = top :: rest → top.Raises →
    g.RaisedTo fullHold top.metrics.level (lowerCount top.metrics.level rest) last

theorem gateSinceRaise_nil (fullHold : Nat) (last : DangerLevel) (g : HysteresisGate) :
    GateSinceRaise fullHold [] last g := by
  intro top rest hsplit
  simp [sinceRaise, sinceLast] at hsplit

theorem GateSinceRaise.concat
    {fullHold : Nat} {life : List Sighting} {last : DangerLevel} {g : HysteresisGate}
    {s : Sighting} (hsince : GateSinceRaise fullHold life last g)
    (hlevel : s.metrics.level = (g.step s.candidate fullHold).1.level)
    (htransition : s.transition = (g.step s.candidate fullHold).2) :
    GateSinceRaise fullHold (life ++ [s]) s.candidate (g.step s.candidate fullHold).1 := by
  intro top rest hsplit htop
  by_cases hraises : s.Raises
  · rw [sinceRaise, sinceLast_concat_of_pos life (by simpa using hraises)] at hsplit
    obtain ⟨rfl, rfl⟩ := List.cons.inj hsplit
    have hlt := HysteresisGate.lt_of_step_escalated (htransition.symm.trans hraises)
    rw [HysteresisGate.step_of_lt fullHold hlt] at hlevel ⊢
    rw [hlevel]
    exact HysteresisGate.raisedTo_raise fullHold s.candidate
  · rw [sinceRaise, sinceLast_concat_of_neg life (by simpa using hraises)] at hsplit
    cases hbefore : sinceLast (fun s : Sighting => s.Raises) life with
    | nil =>
        rw [hbefore] at hsplit
        obtain ⟨rfl, rfl⟩ := List.cons.inj hsplit
        contradiction
    | cons first between =>
        rw [hbefore, List.cons_append] at hsplit
        obtain ⟨rfl, rfl⟩ := List.cons.inj hsplit
        have hno : ¬g.level < s.candidate := by
          intro hlt
          rw [HysteresisGate.step_of_lt fullHold hlt] at htransition
          exact hraises htransition
        rw [lowerCount_concat]
        exact (hsince first between hbefore htop).step hno

variable {settings : RiskSettings} {key : TrackKey} {slot : Option Track}
  {past all earlier later : List Sighting} {s raise : Sighting} {t : Track}

namespace History

theorem gateSinceRaise (hpast : History settings key (past ++ [s]) (some t)) :
    GateSinceRaise settings.hysteresisFrames (lifetime (past ++ [s])) s.candidate t.gate := by
  have hends : ∃ before last, lifetime (past ++ [s]) = before ++ [last] ∧
      GateSinceRaise settings.hysteresisFrames (lifetime (past ++ [s])) last.candidate t.gate := by
    refine of_lifetime (P := fun life t => ∃ before last, life = before ++ [last] ∧
      GateSinceRaise settings.hysteresisFrames life last.candidate t.gate) ?_ ?_ hpast rfl
    · intro ctx d
      have hnil := gateSinceRaise_nil settings.hysteresisFrames .safe .initial
      exact ⟨[], _, rfl, hnil.concat (by rfl) (by rfl)⟩
    · rintro life t ctx d ⟨before, last, -, hsince⟩
      exact ⟨life, _, rfl, hsince.concat (by rfl) (by rfl)⟩
  obtain ⟨before, last, hlife, hsince⟩ := hends
  obtain ⟨init, hlast⟩ := sinceLast_concat_eq (·.isNew) past s
  have hsame := (List.append_inj' (hlife.symm.trans hlast) rfl).2
  obtain rfl : last = s := by simpa using hsame
  exact hsince

/-- After a raise the level is that of the last raise as long as the lower candidates since then
fit into the hold, and the candidate as soon as they do not. -/
theorem level_since_raise
    (hall : History settings key all slot) (hfront : past ++ [s] <+: all)
    (hsplit : lifetime (past ++ [s]) = earlier ++ raise :: later) (hraises : raise.Raises) :
    ∃ top rest, sinceRaise (raise :: later) = top :: rest ∧
      s.metrics.level =
        if lowerCount top.metrics.level rest ≤ settings.hysteresisFrames then top.metrics.level
        else s.candidate := by
  obtain ⟨t, hpast, htells⟩ := hall.exists_track_of_prefix hfront
  have hpos : decide raise.Raises = true := decide_eq_true hraises
  obtain ⟨top, rest, hsince, htop⟩ :=
    sinceLast_cons_of_pos (p := fun s : Sighting => s.Raises) later hpos
  refine ⟨top, rest, hsince, ?_⟩
  have hwhole : sinceRaise (lifetime (past ++ [s])) = top :: rest := by
    rw [hsplit, sinceRaise, sinceLast_append_of_pos earlier later hpos]
    exact hsince
  rw [htells.level]
  rcases hpast.gateSinceRaise top rest hwhole (of_decide_eq_true htop) with
    ⟨hfit, hgate⟩ | ⟨hspent, -, hgate⟩
  · rw [hgate, if_pos hfit]
  · rw [hgate, if_neg (by omega)]

/-- The delay counts detections: as many as the hold cannot lower the level. -/
theorem level_le_of_length_le
    (hall : History settings key all slot) (hfront : past ++ [s] <+: all)
    (hsplit : lifetime (past ++ [s]) = earlier ++ raise :: later) (hraises : raise.Raises)
    (hshort : later.length ≤ settings.hysteresisFrames) :
    raise.metrics.level ≤ s.metrics.level := by
  obtain ⟨t, hpast, htells⟩ := hall.exists_track_of_prefix hfront
  obtain ⟨u, hraised, hutells⟩ := hall.exists_track_of_lifetime hfront hsplit
  have hugate := hraised.gate
  have hgate := hpast.remembers.gate
  rw [hutells.raised hraises] at hugate
  rw [hsplit, ← List.singleton_append, ← List.append_assoc, List.map_append,
    HysteresisGate.after_append, ← hugate] at hgate
  have hlevel : raise.metrics.level = raise.candidate := by
    rw [hutells.level, hutells.raised hraises]
  rw [htells.level, hgate, hlevel]
  exact HysteresisGate.level_le_foldl (g := ⟨raise.candidate, settings.hysteresisFrames⟩)
    (Nat.le_refl _) (by rwa [List.length_map])

end History

/-! ## Detections and frames -/

theorem length_le_of_window {frames : List Nat} {first hold : Nat} (hnodup : frames.Nodup)
    (hwindow : ∀ frame ∈ frames, first ≤ frame ∧ frame ≤ first + hold) :
    frames.length ≤ hold + 1 := by
  have hsubset : frames ⊆ List.range' first (hold + 1) := by
    intro frame hmem
    have hbounds := hwindow frame hmem
    rw [List.mem_range'_1]
    omega
  have hlength := (List.subperm_of_subset hnodup hsubset).length_le
  rwa [List.length_range'] at hlength

/-- Sightings on different frames, all within a hold after the first, are no more than the hold. -/
theorem length_le_of_frames
    (hsorted : (past ++ [s]).Pairwise fun s t => s.frame ≤ t.frame)
    (hsplit : lifetime (past ++ [s]) = earlier ++ raise :: later) {hold : Nat}
    (hwithin : s.frame ≤ raise.frame + hold)
    (honce : ((raise :: later).map (·.frame)).Nodup) :
    later.length ≤ hold := by
  obtain ⟨before, hbefore, -⟩ := exists_prefix_of_sinceLast hsplit
  have hlast : ∀ t ∈ past ++ [s], t.frame ≤ s.frame := by
    intro t hmem
    rcases List.mem_append.mp hmem with hpast | hself
    · exact (List.pairwise_append.mp hsorted).2.2 t hpast s List.mem_cons_self
    · exact Nat.le_of_eq (congrArg Sighting.frame (List.mem_singleton.mp hself))
  rw [hbefore] at hsorted hlast
  have hfirst := (List.pairwise_cons.mp (List.pairwise_append.mp hsorted).2.1).1
  have hwindow : ∀ frame ∈ (raise :: later).map (·.frame),
      raise.frame ≤ frame ∧ frame ≤ raise.frame + hold := by
    intro frame hmem
    obtain ⟨t, ht, rfl⟩ := List.mem_map.mp hmem
    have hupper := hlast t (List.mem_append_right before ht)
    rcases List.mem_cons.mp ht with rfl | hlater
    · omega
    · have hlower := hfirst t hlater
      omega
  have hlength := length_le_of_window honce hwindow
  rw [List.length_map, List.length_cons] at hlength
  omega

/-- The delay counts frames: within a full hold of frames after a raise, no detection of the object
in the same lifetime is reported below the level. -/
def DelayCountsFrames : Prop :=
  ∀ settings engine, RiskEngine.ofSettings settings = .ok engine →
    ∀ name id (frames : List EngineFrame) start,
      frames.map (·.context.index) = List.range' start frames.length →
      ∀ past s, past ++ [s] <+: engine.sightingsOf (.object name id) frames →
        ∀ earlier raise later, lifetime (past ++ [s]) = earlier ++ raise :: later →
          raise.Raises → raise.frame < s.frame →
            s.frame ≤ raise.frame + settings.hysteresisFrames →
              raise.metrics.level ≤ s.metrics.level

theorem raised_level_kept_iff
    {engine : RiskEngine} (hnew : RiskEngine.ofSettings settings = .ok engine)
    (name : String) (id : Int) (frames : List EngineFrame)
    (hfront : past ++ [s] <+: engine.sightingsOf (.object name id) frames)
    (hsplit : lifetime (past ++ [s]) = earlier ++ raise :: later) (hraises : raise.Raises) :
    (∃ top rest, sinceRaise (raise :: later) = top :: rest ∧
        (raise.metrics.level ≤ s.metrics.level ↔
          raise.metrics.level ≤ s.candidate ∨
            (raise.metrics.level ≤ top.metrics.level ∧
              lowerCount top.metrics.level rest ≤ settings.hysteresisFrames))) ∧
      (later.length ≤ settings.hysteresisFrames → raise.metrics.level ≤ s.metrics.level) ∧
      ∀ start, frames.map (·.context.index) = List.range' start frames.length →
        s.frame ≤ raise.frame + settings.hysteresisFrames →
          ((raise :: later).map (·.frame)).Nodup → raise.metrics.level ≤ s.metrics.level := by
  obtain ⟨slot, hall⟩ := RiskEngine.exists_history hnew name id frames
  have hcandidate := hall.candidate_le_level hfront
  obtain ⟨top, rest, hsince, hlevel⟩ := hall.level_since_raise hfront hsplit hraises
  refine ⟨⟨top, rest, hsince, ?_⟩, hall.level_le_of_length_le hfront hsplit hraises, ?_⟩
  · by_cases hfit : lowerCount top.metrics.level rest ≤ settings.hysteresisFrames
    · rw [if_pos hfit] at hlevel
      rw [hlevel] at hcandidate ⊢
      constructor
      · exact fun hkept => Or.inr ⟨hkept, hfit⟩
      · rintro (hhigh | ⟨hkept, -⟩)
        · exact Nat.le_trans hhigh hcandidate
        · exact hkept
    · rw [if_neg hfit] at hlevel
      rw [hlevel]
      constructor
      · exact Or.inl
      · rintro (hhigh | ⟨-, hfits⟩)
        · exact hhigh
        · contradiction
  · intro start hconsecutive hwithin honce
    have hsorted : frames.Pairwise fun f g => f.context.index ≤ g.context.index := by
      have hrange := List.pairwise_le_range' (s := start) (n := frames.length)
      rwa [← hconsecutive, List.pairwise_map] at hrange
    have hordered := (sightingsOf_sorted hsorted).sublist hfront.sublist
    exact hall.level_le_of_length_le hfront hsplit hraises
      (length_le_of_frames hordered hsplit hwithin honce)

def briefHold : RiskSettings :=
  { RiskSettings.default with hysteresisFrames := 1 }

/-- A person right ahead, and on the next frame twice far aside. -/
def twiceAside : List EngineFrame :=
  let ahead : Detection := ⟨1, 0, "Person", 1, ⟨260, 100, 380, 400⟩⟩
  let aside : Detection := ⟨1, 0, "Person", 1, ⟨20, 100, 60, 160⟩⟩
  [⟨⟨⟨640, 480⟩, 0, 30⟩, [ahead]⟩, ⟨⟨⟨640, 480⟩, 1, 30⟩, [aside, aside]⟩]

theorem ofSettings_briefHold : RiskEngine.ofSettings briefHold = .ok ⟨briefHold, .empty, 0⟩ := by
  have hdefault := (RiskEngine.ofSettings_eq_ok_iff.mp RiskEngine.ofSettings_default).1
  exact RiskEngine.ofSettings_eq_ok_iff.mpr ⟨hdefault, rfl⟩

theorem sightingsOf_twiceAside :
    ∃ first second third,
      [first, second] ++ [third] <+:
          RiskEngine.sightingsOf ⟨briefHold, .empty, 0⟩ (.object "Person" 1) twiceAside ∧
        lifetime ([first, second] ++ [third]) = [] ++ first :: [second, third] ∧ first.Raises ∧
        first.frame = 0 ∧ third.frame = 1 ∧
        first.metrics.level = .warn ∧ third.metrics.level = .safe := by
  have hfacts : (RiskEngine.sightingsOf ⟨briefHold, .empty, 0⟩ (.object "Person" 1)
      twiceAside).map (fun s => (s.isNew, s.transition, s.frame, s.metrics.level)) =
        [(true, .escalated, 0, .warn), (false, .holding, 1, .warn),
          (false, .decayed, 1, .safe)] := by
    decide +kernel
  have hlength := congrArg List.length hfacts
  rw [List.length_map] at hlength
  obtain ⟨first, second, third, hall⟩ := List.length_eq_three.mp hlength
  rw [hall] at hfacts
  simp only [List.map_cons, List.map_nil, List.cons.injEq, Prod.mk.injEq, and_true] at hfacts
  obtain ⟨⟨hnew₁, hraises, hframe₁, hlevel₁⟩, ⟨hnew₂, -⟩, hnew₃, -, hframe₃, hlevel₃⟩ := hfacts
  have hlife : lifetime ([first, second] ++ [third]) = [] ++ first :: [second, third] := by
    simp [lifetime, sinceLast, hnew₁, hnew₂, hnew₃]
  refine ⟨first, second, third, ?_, hlife, hraises, hframe₁, hframe₃, hlevel₁, hlevel₃⟩
  rw [hall]
  exact List.prefix_rfl

theorem not_delayCountsFrames : ¬DelayCountsFrames := by
  intro hdelay
  obtain ⟨first, second, third, hfront, hlife, hraises, hframe₁, hframe₃, hlevel₁, hlevel₃⟩ :=
    sightingsOf_twiceAside
  have hkept := hdelay briefHold _ ofSettings_briefHold "Person" 1 twiceAside 0 rfl
    [first, second] third hfront [] first [second, third] hlife hraises
    (by omega) (by rw [hframe₁, hframe₃]; decide)
  rw [hlevel₁, hlevel₃] at hkept
  exact absurd hkept (by decide)

/-- The second detection on the frame after the raise finds the hold used up. -/
theorem raised_level_kept_iff_twiceAside :
    RiskEngine.ofSettings briefHold = .ok ⟨briefHold, .empty, 0⟩ ∧
      ∃ first second third,
        [first, second] ++ [third] <+:
            RiskEngine.sightingsOf ⟨briefHold, .empty, 0⟩ (.object "Person" 1) twiceAside ∧
          lifetime ([first, second] ++ [third]) = [] ++ first :: [second, third] ∧
          first.Raises ∧
          ∃ top rest, sinceRaise [first, second, third] = top :: rest ∧
            (first.metrics.level ≤ third.metrics.level ↔
              first.metrics.level ≤ third.candidate ∨
                (first.metrics.level ≤ top.metrics.level ∧
                  lowerCount top.metrics.level rest ≤ 1)) := by
  obtain ⟨first, second, third, hfront, hlife, hraises, -⟩ := sightingsOf_twiceAside
  exact ⟨ofSettings_briefHold, first, second, third, hfront, hlife, hraises,
    (raised_level_kept_iff ofSettings_briefHold "Person" 1 twiceAside hfront hlife hraises).1⟩

end ObstacleWatch
