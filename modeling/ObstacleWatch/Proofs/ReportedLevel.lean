import Mathlib.Data.List.DropRight
import ObstacleWatch.Proofs.TrackLifetime

/-!
# Reported levels are founded

The level reported for a tracked object is at least the candidate of the detection, so no danger is
suppressed, and at most the highest of the latest candidates in the lifetime of the track, as many
as a full hold and one more, so no danger is made up.  A warning can therefore be traced back to a
recent detection that was a warning by itself, and what that detection rests on can be read off the
lifetime.
-/

namespace ObstacleWatch

theorem candidateLevel_eq_warn_iff {settings : RiskSettings} {v : ApproachView} :
    candidateLevel settings v = .warn ↔
      (v.megaClose = true ∧ v.inNearCenter = true) ∨
        (v.inCenter = true ∧ settings.streakWarn ≤ v.streak ∧ v.pttc ≤ settings.pttcWarn) := by
  unfold candidateLevel
  constructor
  · intro hwarn
    split at hwarn
    · exact Or.inl ‹_›
    · split at hwarn
      · exact Or.inr ‹_›
      · split at hwarn <;> contradiction
  · rintro (hmega | hstreak)
    · rw [if_pos hmega]
    · rw [if_pos hstreak, ite_self]

theorem mem_rtake_of_length_le {α : Type} {earlier later : List α} {t : α} {n : Nat}
    (hlater : later.length ≤ n) : t ∈ (earlier ++ t :: later).rtake (n + 1) := by
  have hdrop : (earlier ++ t :: later).length - (n + 1) ≤ earlier.length := by
    simp only [List.length_append, List.length_cons]
    omega
  rw [List.rtake, List.drop_append_of_le_length hdrop]
  simp

/-- The detection is a warning by itself: it is mega-close and roughly ahead, or it is straight
ahead with a short time to collision, after enough approaching detections in its lifetime. -/
def WarnsByItself (settings : RiskSettings) (earlier : List Sighting) (t : Sighting) : Prop :=
  (t.metrics.megaClose = true ∧ t.metrics.inNearCenter = true) ∨
    (t.metrics.inCenter = true ∧ t.metrics.pttc ≤ settings.pttcWarn ∧
      settings.streakWarn ≤ (earlier ++ [t]).countP fun s => s.ApproachesInBand)

/-- The level reported for the last sighting of a lifetime is neither suppressed nor unfounded. -/
structure FoundedLevel (settings : RiskSettings) (life : List Sighting) (s : Sighting) :
    Prop where
  last : ∃ earlier, life = earlier ++ [s]
  started : ∃ first rest, life = first :: rest ∧ first.isNew = true ∧ ∀ t ∈ rest, t.isNew = false
  candidates : ∀ t ∈ life, t.candidate = candidateLevel settings t.view
  candidate_le : s.candidate ≤ s.metrics.level
  le_highest : s.metrics.level ≤
    .highest ((life.rtake (settings.hysteresisFrames + 1)).map (·.candidate))
  megaClose : s.metrics.megaClose = true → s.metrics.inNearCenter = true → s.metrics.level = .warn
  cause : s.metrics.level = .warn → ∃ earlier t later,
    life = earlier ++ t :: later ∧ later.length ≤ settings.hysteresisFrames ∧
      WarnsByItself settings earlier t

variable {settings : RiskSettings} {key : TrackKey} {slot : Option Track}
  {past all : List Sighting} {s : Sighting}

namespace History

/-- A level is that of a sighting in the lifetime, with no more sightings after it than a full hold
allows. -/
theorem exists_level_source
    (hall : History settings key all slot) (hfront : past ++ [s] <+: all) :
    ∃ earlier t later, lifetime (past ++ [s]) = earlier ++ t :: later ∧
      later.length ≤ settings.hysteresisFrames ∧ t.candidate = s.metrics.level := by
  obtain ⟨track, hpast, htells⟩ := hall.exists_track_of_prefix hfront
  have hlife := hpast.remembers
  have hne : (lifetime (past ++ [s])).map (·.candidate) ≠ [] := by
    obtain ⟨first, rest, hstarted, -⟩ := hlife.started
    simp [hstarted]
  obtain ⟨old, recent, hsplit, hfit⟩ :=
    HysteresisGate.heldFrom_after settings.hysteresisFrames hne
  rw [← hlife.gate, ← htells.level] at hsplit
  obtain ⟨earlier, rest, hlifetime, -, hrest⟩ := List.map_eq_append_iff.mp hsplit
  obtain ⟨t, later, rfl, hcandidate, rfl⟩ := List.map_eq_cons_iff.mp hrest
  rw [List.length_map] at hfit
  exact ⟨earlier, t, later, hlifetime, by omega, hcandidate⟩

theorem warnsByItself
    {earlier later : List Sighting} {t : Sighting} (hall : History settings key all slot)
    (hfront : past <+: all) (hsplit : lifetime past = earlier ++ t :: later)
    (hwarn : t.candidate = .warn) : WarnsByItself settings earlier t := by
  obtain ⟨track, hlife, htells⟩ := hall.exists_track_of_lifetime hfront hsplit
  have hstreak := hlife.streak
  rw [← htells.streak] at hstreak
  rw [htells.candidate, candidateLevel_eq_warn_iff] at hwarn
  rcases hwarn with hmega | ⟨hcenter, hlong, hpttc⟩
  · exact Or.inl hmega
  · exact Or.inr ⟨hcenter, hpttc, Nat.le_trans hlong hstreak⟩

theorem foundedLevel
    (hall : History settings key all slot) (hfront : past ++ [s] <+: all) :
    FoundedLevel settings (lifetime (past ++ [s])) s := by
  obtain ⟨track, hpast, htells⟩ := hall.exists_track_of_prefix hfront
  have hlife := hpast.remembers
  have hcandidate := hall.candidate_le_level hfront
  obtain ⟨earlier, t, later, hsplit, hlater, hsource⟩ := hall.exists_level_source hfront
  constructor
  · exact sinceLast_concat_eq _ past s
  · exact hlife.started
  · exact hlife.candidates
  · exact hcandidate
  · rw [hsplit, ← hsource]
    apply DangerLevel.le_highest
    exact List.mem_map_of_mem (mem_rtake_of_length_le hlater)
  · intro hmega hnear
    have hwarn : s.candidate = .warn := by
      rw [htells.candidate]
      exact candidateLevel_eq_warn_iff.mpr (Or.inl ⟨hmega, hnear⟩)
    rw [hwarn] at hcandidate
    exact DangerLevel.eq_warn_of_le hcandidate
  · intro hwarn
    exact ⟨earlier, t, later, hsplit, hlater,
      hall.warnsByItself hfront hsplit (hsource.trans hwarn)⟩

end History

theorem reported_level_founded
    {engine : RiskEngine} (hnew : RiskEngine.ofSettings settings = .ok engine)
    (name : String) (id : Int) (frames : List EngineFrame) :
    (engine.sightingsOf (.object name id) frames).map (fun s => (s.detection, s.metrics)) =
        ((engine.run frames).flatMap fun taken =>
          (taken.frame.detections.zip taken.report.metrics).filter fun pair =>
            pair.1.Shows name id) ∧
      ∀ past s, past ++ [s] <+: engine.sightingsOf (.object name id) frames →
        FoundedLevel settings (lifetime (past ++ [s])) s := by
  obtain ⟨slot, hall⟩ := RiskEngine.exists_history hnew name id frames
  constructor
  · exact engine.sightingsOf_reported name id frames
  · intro past s hfront
    exact hall.foundedLevel hfront

/-- A person right ahead, and then twice on one frame far aside: the warning holds. -/
theorem reported_level_founded_aside :
    let ahead : Detection := ⟨1, 0, "Person", 1, ⟨260, 100, 380, 400⟩⟩
    let aside : Detection := ⟨1, 0, "Person", 1, ⟨20, 100, 60, 160⟩⟩
    let engine : RiskEngine := ⟨.default, .empty, 0⟩
    let frames : List EngineFrame :=
      [⟨⟨⟨640, 480⟩, 0, 30⟩, [ahead]⟩, ⟨⟨⟨640, 480⟩, 1, 30⟩, [aside, aside]⟩]
    RiskEngine.ofSettings .default = .ok engine ∧
      ∃ first second third,
        engine.sightingsOf (.object "Person" 1) frames = [first, second, third] ∧
          third.metrics.level = .warn ∧ third.candidate = .safe ∧
            FoundedLevel .default (lifetime [first, second, third]) third := by
  intro ahead aside engine frames
  have hnew : RiskEngine.ofSettings .default = .ok engine := RiskEngine.ofSettings_default
  have hlevels : (engine.sightingsOf (.object "Person" 1) frames).map
      (fun s => (s.metrics.level, s.candidate)) =
        [(.warn, .warn), (.warn, .safe), (.warn, .safe)] := by
    decide +kernel
  have hlength := congrArg List.length hlevels
  rw [List.length_map] at hlength
  obtain ⟨first, second, third, hall⟩ := List.length_eq_three.mp hlength
  rw [hall] at hlevels
  simp only [List.map_cons, List.map_nil, List.cons.injEq, Prod.mk.injEq] at hlevels
  have hfront : [first, second] ++ [third] <+:
      engine.sightingsOf (.object "Person" 1) frames := by
    rw [hall]
    exact List.prefix_rfl
  exact ⟨hnew, first, second, third, hall, hlevels.2.2.1.1, hlevels.2.2.1.2,
    (reported_level_founded hnew "Person" 1 frames).2 [first, second] third hfront⟩

end ObstacleWatch
