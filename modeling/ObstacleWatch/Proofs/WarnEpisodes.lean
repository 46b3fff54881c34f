import Mathlib.Algebra.BigOperators.Group.Finset.Basic
import Mathlib.Algebra.Order.BigOperators.Group.Finset
import Mathlib.Data.Finset.Prod
import ObstacleWatch.Proofs.OnsetTiming
import ObstacleWatch.Proofs.PipelineRun

/-!
# Warning episodes of a tracked object

An episode is a longest stretch of frames on each of which the object is a warning.  The gate
compares a frame with the one before it and not with the objects it has passed on the same frame: an
object that is a warning twice on the first frame of an episode raises two onsets.  So the onsets of
an object are counted by the warnings on the first frames of its episodes, and there is one onset to
an episode exactly if each of these frames holds the warning once.
-/

namespace ObstacleWatch

variable {assessments : List FrameAssessment} {name : String} {id : Int} {n first last : Nat}

/-! ## Episodes -/

theorem WarnsAt.lt_length (hwarns : WarnsAt assessments name id n) : n < assessments.length := by
  obtain ⟨a, ha, -⟩ := hwarns
  exact (List.getElem?_eq_some_iff.mp ha).1

/-- From the first frame to the last one the tracked object is a warning, and the stretch cannot be
made longer at either end. -/
structure IsEpisode (assessments : List FrameAssessment) (name : String) (id : Int)
    (first last : Nat) : Prop where
  ordered : first ≤ last
  warns : ∀ n, first ≤ n → n ≤ last → WarnsAt assessments name id n
  before : first = 0 ∨ ¬WarnsAt assessments name id (first - 1)
  after : ¬WarnsAt assessments name id (last + 1)

instance (assessments : List FrameAssessment) (name : String) (id : Int) (first last : Nat) :
    Decidable (IsEpisode assessments name id first last) :=
  decidable_of_iff
    (first ≤ last ∧ (∀ n, first ≤ n → n ≤ last → WarnsAt assessments name id n) ∧
      (first = 0 ∨ ¬WarnsAt assessments name id (first - 1)) ∧
      ¬WarnsAt assessments name id (last + 1))
    ⟨fun ⟨ordered, warns, before, after⟩ => ⟨ordered, warns, before, after⟩,
      fun h => ⟨h.ordered, h.warns, h.before, h.after⟩⟩

/-- The episodes of a tracked object, each given by its first and its last frame. -/
def episodes (assessments : List FrameAssessment) (name : String) (id : Int) :
    Finset (Nat × Nat) :=
  (Finset.range assessments.length ×ˢ Finset.range assessments.length).filter fun e =>
    IsEpisode assessments name id e.1 e.2

theorem mem_episodes {e : Nat × Nat} :
    e ∈ episodes assessments name id ↔ IsEpisode assessments name id e.1 e.2 := by
  rw [episodes, Finset.mem_filter, Finset.mem_product, Finset.mem_range, Finset.mem_range]
  refine ⟨fun h => h.2, fun h => ⟨⟨?_, ?_⟩, h⟩⟩
  · exact (h.warns e.1 le_rfl h.ordered).lt_length
  · exact (h.warns e.2 h.ordered le_rfl).lt_length

namespace IsEpisode

theorem starts (hepisode : IsEpisode assessments name id first last) :
    WarnStartsAt assessments name id first :=
  ⟨hepisode.warns first le_rfl hepisode.ordered, hepisode.before⟩

theorem last_le {other : Nat} (hepisode : IsEpisode assessments name id first last)
    (hother : IsEpisode assessments name id first other) : other ≤ last := by
  by_contra hlater
  have hwarns := hother.warns (last + 1) (Nat.le_succ_of_le hepisode.ordered) (by omega)
  exact hepisode.after hwarns

end IsEpisode

/-- A warning that starts goes on to a last frame. -/
theorem WarnStartsAt.exists_episode (hstart : WarnStartsAt assessments name id n) :
    ∃ last, IsEpisode assessments name id n last := by
  have hstops : ∃ last, n ≤ last ∧ ¬WarnsAt assessments name id (last + 1) := by
    -- At the latest it stops where there are no more frames.
    refine ⟨assessments.length, hstart.1.lt_length.le, ?_⟩
    intro hwarns
    have hlt := hwarns.lt_length
    omega
  obtain ⟨hordered, hafter⟩ := Nat.find_spec hstops
  refine ⟨Nat.find hstops, hordered, ?_, hstart.2, hafter⟩
  intro m hfirst hlast
  rcases Nat.eq_or_lt_of_le hfirst with rfl | hlater
  · exact hstart.1
  · -- The frame before is not the least one after which the warning stops.
    have hearlier := Nat.find_min hstops (show m - 1 < Nat.find hstops by omega)
    have hm : m - 1 + 1 = m := by omega
    rw [hm] at hearlier
    by_contra hnot
    exact hearlier ⟨by omega, hnot⟩

/-- Each frame on which a warning starts is the first frame of one episode. -/
theorem image_first_episodes (assessments : List FrameAssessment) (name : String) (id : Int) :
    (episodes assessments name id).image Prod.fst =
      (Finset.range assessments.length).filter (WarnStartsAt assessments name id) := by
  ext n
  rw [Finset.mem_image, Finset.mem_filter, Finset.mem_range]
  constructor
  · rintro ⟨e, he, rfl⟩
    have hstart := (mem_episodes.mp he).starts
    exact ⟨hstart.1.lt_length, hstart⟩
  · rintro ⟨-, hstart⟩
    obtain ⟨last, hepisode⟩ := hstart.exists_episode
    exact ⟨(n, last), mem_episodes.mpr hepisode, rfl⟩

theorem injOn_first_episodes (assessments : List FrameAssessment) (name : String) (id : Int) :
    Set.InjOn Prod.fst (episodes assessments name id : Set (Nat × Nat)) := by
  rintro ⟨first, last⟩ he ⟨first', last'⟩ he' hfirst
  obtain rfl : first = first' := hfirst
  have hepisode := mem_episodes.mp he
  have hother := mem_episodes.mp he'
  exact congrArg (Prod.mk first) (le_antisymm (hother.last_le hepisode) (hepisode.last_le hother))

/-! ## Counting onsets -/

/-- How many objects are the tracked one and a warning, on the frame at a place of a sequence. -/
def warnCountAt (assessments : List FrameAssessment) (name : String) (id : Int) (n : Nat) : Nat :=
  match assessments[n]? with
  | some a => a.warnCount name id
  | none => 0

theorem warnCountAt_pos_iff :
    0 < warnCountAt assessments name id n ↔ WarnsAt assessments name id n := by
  rw [warnCountAt, WarnsAt]
  cases assessments[n]? with
  | none => simp
  | some a => simpa using FrameAssessment.warnCount_pos_iff

theorem onsetCount_append (earlier later : List AlarmEvent) (name : String) (id : Int) :
    onsetCount (earlier ++ later) name id =
      onsetCount earlier name id + onsetCount later name id := by
  rw [onsetCount, warnOnsets_append, List.countP_append]
  rfl

theorem onsetCount_flatten {events : List (List AlarmEvent)} {count : Nat → Nat}
    (heach : ∀ n, ∀ es ∈ events[n]?, onsetCount es name id = count n) :
    onsetCount events.flatten name id = ∑ n ∈ Finset.range events.length, count n := by
  induction events using List.reverseRecOn with
  | nil => rfl
  | append_singleton earlier last ih =>
      have hlast : onsetCount last name id = count earlier.length :=
        heach earlier.length last (by simp)
      have hearlier : onsetCount earlier.flatten name id =
          ∑ n ∈ Finset.range earlier.length, count n := by
        apply ih
        intro n es hes
        have hlt := (List.getElem?_eq_some_iff.mp hes).1
        apply heach n es
        rw [List.getElem?_append_left hlt]
        exact hes
      rw [List.flatten_concat, onsetCount_append, hearlier, hlast, List.length_append,
        List.length_singleton, Finset.sum_range_succ]

/-- The onsets of a tracked object, frame by frame and over all frames, against its episodes. -/
structure OnsetsByEpisode (assessments : List FrameAssessment) (events : List (List AlarmEvent))
    (name : String) (id : Int) : Prop where
  each : ∀ n, ∀ es ∈ events[n]?, onsetCount es name id =
    if WarnStartsAt assessments name id n then warnCountAt assessments name id n else 0
  total : onsetCount events.flatten name id =
    ∑ e ∈ episodes assessments name id, warnCountAt assessments name id e.1
  atLeast : (episodes assessments name id).card ≤ onsetCount events.flatten name id
  once_iff : onsetCount events.flatten name id = (episodes assessments name id).card ↔
    ∀ e ∈ episodes assessments name id, warnCountAt assessments name id e.1 = 1

theorem onsetsByEpisode_of_each {events : List (List AlarmEvent)}
    (hlength : events.length = assessments.length)
    (heach : ∀ n, ∀ es ∈ events[n]?, onsetCount es name id =
      if WarnStartsAt assessments name id n then warnCountAt assessments name id n else 0) :
    OnsetsByEpisode assessments events name id := by
  have htotal : onsetCount events.flatten name id =
      ∑ e ∈ episodes assessments name id, warnCountAt assessments name id e.1 := by
    rw [onsetCount_flatten heach, hlength, ← Finset.sum_filter,
      ← image_first_episodes, Finset.sum_image (injOn_first_episodes assessments name id)]
  have hpos : ∀ e ∈ episodes assessments name id, 1 ≤ warnCountAt assessments name id e.1 := by
    intro e he
    exact warnCountAt_pos_iff.mpr (mem_episodes.mp he).starts.1
  refine ⟨heach, htotal, ?_, ?_⟩
  · rw [htotal, Finset.card_eq_sum_ones]
    exact Finset.sum_le_sum hpos
  · rw [htotal, Finset.card_eq_sum_ones, eq_comm, Finset.sum_eq_sum_iff_of_le hpos]
    exact forall₂_congr fun _ _ => eq_comm

/-- The gate raises one onset for each warning on a frame on which the object's warning starts. -/
theorem AlarmGate.onsetCount_run (assessments : List FrameAssessment) (name : String)
    (hid : 0 ≤ id) (n : Nat) :
    ∀ es ∈ ((initial.run assessments).map (·.events))[n]?, onsetCount es name id =
      if WarnStartsAt assessments name id n then warnCountAt assessments name id n else 0 := by
  intro es hes
  rw [List.getElem?_map, Option.mem_def, Option.map_eq_some_iff] at hes
  obtain ⟨taken, htaken, rfl⟩ := hes
  obtain ⟨a, ha⟩ := exists_assessment_of_getElem?_run htaken
  rw [getElem?_run_initial ha] at htaken
  obtain rfl := Option.some.inj htaken
  rw [warnCountAt, ha]
  exact onsetCount_at ha hid

/-! ## Runs of the pipeline -/

theorem onsets_by_episode
    {settings : RiskSettings} {fpsSource : FpsSource} {capacity : Nat} {p : Pipeline}
    (hnew : Pipeline.ofSettings settings fpsSource capacity = .ok p) (frames : List Frame)
    (name : String) (hid : 0 ≤ id) :
    OnsetsByEpisode (p.assessments frames) ((p.run frames).map (·.outcome.events)) name id := by
  obtain ⟨-, rfl⟩ := Pipeline.ofSettings_eq_ok_iff.mp hnew
  apply onsetsByEpisode_of_each
  · rw [List.length_map, Pipeline.length_run, Pipeline.length_assessments]
  · rw [Pipeline.events_eq_run_alarms]
    exact AlarmGate.onsetCount_run _ name hid

/-- Over every run a tracked object has as many onsets as episodes. -/
def OneOnsetPerEpisode : Prop :=
  ∀ settings fpsSource capacity p, Pipeline.ofSettings settings fpsSource capacity = .ok p →
    ∀ (frames : List Frame) (name : String) (id : Int), 0 ≤ id →
      onsetCount ((p.run frames).map (·.outcome.events)).flatten name id =
        (episodes (p.assessments frames) name id).card

/-- A frame on which the tracker has given one number to a person twice. -/
def doubledPerson : Frame :=
  let person : Detection := ⟨1, 0, "Person", 1, ⟨260, 100, 380, 400⟩⟩
  ⟨⟨640, 480⟩, none, [person, person]⟩

theorem not_oneOnsetPerEpisode : ¬OneOnsetPerEpisode := by
  intro honce
  have hcounts := honce .default (.constant 30) 16 _ (Pipeline.ofSettings_default _ _)
    [doubledPerson] "Person" 1 (by decide)
  have honsets : onsetCount (((Pipeline.new .default (.constant 30) 16).run
      [doubledPerson]).map (·.outcome.events)).flatten "Person" 1 = 2 := by
    decide +kernel
  have hepisodes : (episodes ((Pipeline.new .default (.constant 30) 16).assessments
      [doubledPerson]) "Person" 1).card = 1 := by
    decide +kernel
  omega

/-- The one episode of the doubled person holds its warning twice on its first frame. -/
theorem onsets_by_episode_doubledPerson :
    let p := Pipeline.new .default (.constant 30) 16
    Pipeline.ofSettings .default (.constant 30) 16 = .ok p ∧ (0 : Int) ≤ 1 ∧
      OnsetsByEpisode (p.assessments [doubledPerson])
        ((p.run [doubledPerson]).map (·.outcome.events)) "Person" 1 ∧
      warnCountAt (p.assessments [doubledPerson]) "Person" 1 0 = 2 := by
  intro p
  have hnew : Pipeline.ofSettings .default (.constant 30) 16 = .ok p :=
    Pipeline.ofSettings_default _ _
  refine ⟨hnew, by decide, onsets_by_episode hnew [doubledPerson] "Person" (by decide), ?_⟩
  decide +kernel

end ObstacleWatch
