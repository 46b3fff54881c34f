import Mathlib.Order.Bounds.Basic
import ObstacleWatch.Proofs.DetectionOrder
import ObstacleWatch.Proofs.TrackWindow

/-!
# The choice of the most dangerous object

The one pass that looks for the most dangerous object finds the level of a frame whatever the scores
are: no object has a higher level than the one found.  If every score is a number, ranks are
compared like pairs of a level and a score, and the pass finds the first of the objects with the
greatest pair.  The scores of an engine always are numbers.
-/

namespace ObstacleWatch

/-! ## Comparing ranks -/

namespace AssessedObject

variable {a b c : AssessedObject}

/-- The level and then the score of the first object are at most those of the second. -/
def RanksAtMost (a b : AssessedObject) : Prop :=
  a.metrics.level < b.metrics.level ∨
    (a.metrics.level = b.metrics.level ∧ a.metrics.score ≤ b.metrics.score)

theorem level_le_of_not_outranks (hab : ¬a.Outranks b) : a.metrics.level ≤ b.metrics.level := by
  have hlevel : ¬b.metrics.level < a.metrics.level := fun hlt => hab (Or.inl hlt)
  exact Nat.le_of_not_lt hlevel

/-- Of two objects with numbers for scores the first ranks at most as high, or it outranks the
second. -/
theorem ranksAtMost_iff (ha : IsNumber a.metrics.score) (hb : IsNumber b.metrics.score) :
    a.RanksAtMost b ↔ ¬a.Outranks b := by
  constructor
  · rintro (hlevel | ⟨hlevel, hscore⟩) (hhigher | ⟨hsame, hgreater⟩)
    · exact Nat.lt_asymm hlevel hhigher
    · rw [hsame] at hlevel
      exact Nat.lt_irrefl _ hlevel
    · rw [hlevel] at hhigher
      exact Nat.lt_irrefl _ hhigher
    · exact not_lt_of_ge (le_iff_value.mp hscore).2.2 (lt_iff_value.mp hgreater).2.2
  · intro hab
    rcases Nat.lt_or_eq_of_le (level_le_of_not_outranks hab) with hlevel | hlevel
    · exact Or.inl hlevel
    · have hsame := DangerLevel.eq_of_rank_eq hlevel
      exact Or.inr ⟨hsame, float_le_of_not_lt hb ha fun hlt => hab (Or.inr ⟨hsame, hlt⟩)⟩

/-- What outranks a leader outranks everything that does not. -/
theorem Outranks.of_not_outranks (hac : a.Outranks c) (hbc : ¬b.Outranks c)
    (hb : IsNumber b.metrics.score) : a.Outranks b := by
  have hlevel := level_le_of_not_outranks hbc
  rcases hac with hac | ⟨hac, hscore⟩
  · exact Or.inl (Nat.lt_of_le_of_lt hlevel hac)
  · have hc : IsNumber c.metrics.score := (lt_iff_value.mp hscore).1
    rcases (ranksAtMost_iff hb hc).mpr hbc with hlower | ⟨hsame, hle⟩
    · exact Or.inl (hac ▸ hlower)
    · exact Or.inr ⟨hac.trans hsame.symm, float_lt_of_le_of_lt hle hscore⟩

end AssessedObject

/-! ## The pass -/

namespace FrameAssessment

open AssessedObject

/-- The pass ends with the leader it started with or with an object at its own position. -/
theorem leader_eq_or_placed (best : Nat × AssessedObject) (position : Nat)
    (os : List AssessedObject) :
    leader best position os = best ∨
      ∃ k o, os[k]? = some o ∧ leader best position os = (position + k, o) := by
  induction os generalizing best position with
  | nil => exact Or.inl rfl
  | cons o os ih =>
      rw [leader]
      rcases ih (if o.Outranks best.2 then (position, o) else best) (position + 1) with
        hkept | ⟨k, later, hk, hleader⟩
      · rw [hkept]
        by_cases hbetter : o.Outranks best.2
        · rw [if_pos hbetter]
          exact Or.inr ⟨0, o, rfl, rfl⟩
        · rw [if_neg hbetter]
          exact Or.inl rfl
      · rw [hleader]
        exact Or.inr ⟨k + 1, later, hk, by rw [Nat.add_assoc, Nat.add_comm 1]⟩

/-- Among objects with numbers for scores a new leader outranks all objects before it. -/
theorem leader_eq_or_outranks_earlier (best : Nat × AssessedObject) (position : Nat)
    {os : List AssessedObject} (hnumbers : ∀ o ∈ os, IsNumber o.metrics.score) :
    leader best position os = best ∨
      ∃ earlier o later, os = earlier ++ o :: later ∧
        leader best position os = (position + earlier.length, o) ∧
        ∀ p ∈ best.2 :: earlier, o.Outranks p := by
  induction os generalizing best position with
  | nil => exact Or.inl rfl
  | cons o os ih =>
      obtain ⟨hnumber, hrest⟩ := List.forall_mem_cons.mp hnumbers
      have hplace (n : Nat) : position + 1 + n = position + (n + 1) := by omega
      rw [leader]
      by_cases hbetter : o.Outranks best.2
      · rw [if_pos hbetter]
        rcases ih (position, o) (position + 1) hrest with
          hkept | ⟨earlier, top, later, rfl, hleader, hall⟩
        · exact Or.inr ⟨[], o, os, rfl, hkept, List.forall_mem_singleton.mpr hbetter⟩
        · have hbest : top.Outranks best.2 := (hall o List.mem_cons_self).trans hbetter
          exact Or.inr ⟨o :: earlier, top, later, rfl, by rw [hleader, hplace, List.length_cons],
            List.forall_mem_cons.mpr ⟨hbest, hall⟩⟩
      · rw [if_neg hbetter]
        rcases ih best (position + 1) hrest with
          hkept | ⟨earlier, top, later, rfl, hleader, hall⟩
        · exact Or.inl hkept
        · obtain ⟨hbest, hearlier⟩ := List.forall_mem_cons.mp hall
          have htop : top.Outranks o := hbest.of_not_outranks hbetter hnumber
          exact Or.inr ⟨o :: earlier, top, later, rfl, by rw [hleader, hplace, List.length_cons],
            List.forall_mem_cons.mpr ⟨hbest, List.forall_mem_cons.mpr ⟨htop, hearlier⟩⟩⟩

/-! ## The object found -/

variable {a : FrameAssessment}

/-- The object at a position has the greatest pair of a level and a score. -/
def TopAt (a : FrameAssessment) (i : Nat) : Prop :=
  ∃ top, a.objects[i]? = some top ∧ ∀ o ∈ a.objects, o.RanksAtMost top

theorem top?_eq_none_iff : a.top? = none ↔ a.objects = [] := by
  rw [← topObject?_eq_none_iff, topObject?, Option.map_eq_none_iff]

theorem topObject?_of_topIndex? {i : Nat} (hi : a.topIndex? = some i) :
    a.topObject? = a.objects[i]? := by
  rw [topIndex?, Option.map_eq_some_iff] at hi
  obtain ⟨placed, hplaced, rfl⟩ := hi
  rw [topObject?, hplaced, Option.map_some]
  rw [top?] at hplaced
  split at hplaced
  · contradiction
  · next o os hobjects =>
      rw [Option.some.injEq] at hplaced
      subst hplaced
      rw [hobjects]
      rcases leader_eq_or_placed (0, o) 1 os with hkept | ⟨k, later, hk, hleader⟩
      · rw [hkept]
        rfl
      · rw [hleader, Nat.add_comm 1, List.getElem?_cons_succ, hk]

/-- The object found outranks all objects before it, and none outranks it. -/
theorem exists_split_of_topIndex? (hnumbers : ∀ o ∈ a.objects, IsNumber o.metrics.score) {i : Nat}
    (hi : a.topIndex? = some i) :
    ∃ earlier top later, a.objects = earlier ++ top :: later ∧ i = earlier.length ∧
      Leads top a.objects ∧ ∀ o ∈ earlier, top.Outranks o := by
  have hobject := topObject?_of_topIndex? hi
  rw [topIndex?, Option.map_eq_some_iff] at hi
  obtain ⟨placed, hplaced, rfl⟩ := hi
  have hleads : Leads placed.2 a.objects :=
    leads_topObject (by rw [topObject?, hplaced, Option.map_some])
  rw [top?] at hplaced
  split at hplaced
  · contradiction
  · next o os hobjects =>
      rw [Option.some.injEq] at hplaced
      rw [hobjects] at hnumbers
      rcases leader_eq_or_outranks_earlier (0, o) 1 (List.forall_mem_cons.mp hnumbers).2 with
        hkept | ⟨earlier, top, later, hsplit, hleader, hall⟩
      · rw [hkept] at hplaced
        subst hplaced
        exact ⟨[], o, os, hobjects, rfl, hleads, by simp⟩
      · rw [hleader] at hplaced
        subst hplaced
        exact ⟨o :: earlier, top, later, by rw [hobjects, hsplit, List.cons_append],
          Nat.add_comm 1 _, hleads, hall⟩

theorem topIndex?_eq_some_iff (hnumbers : ∀ o ∈ a.objects, IsNumber o.metrics.score) {i : Nat} :
    a.topIndex? = some i ↔ IsLeast {j | a.TopAt j} i := by
  have hleast (j : Nat) (hj : a.topIndex? = some j) : IsLeast {j | a.TopAt j} j := by
    obtain ⟨earlier, top, later, hsplit, rfl, hleads, hearlier⟩ :=
      exists_split_of_topIndex? hnumbers hj
    have htopNumber := hnumbers top hleads.mem
    refine ⟨⟨top, by simp [hsplit], fun o ho => ?_⟩, ?_⟩
    · exact (ranksAtMost_iff (hnumbers o ho) htopNumber).mpr (hleads.not_outranked o ho)
    · rintro k ⟨other, hother, hmax⟩
      by_contra hlt
      -- An object before the one found is outranked by it, so it is not greatest.
      rw [hsplit, List.getElem?_append_left (Nat.lt_of_not_le hlt)] at hother
      have hmem := List.mem_of_getElem? hother
      have hothers : other ∈ a.objects := by
        rw [hsplit]
        exact List.mem_append_left _ hmem
      have hatMost := hmax top hleads.mem
      rw [ranksAtMost_iff htopNumber (hnumbers other hothers)] at hatMost
      exact hatMost (hearlier other hmem)
  constructor
  · exact hleast i
  · intro hi
    cases hfound : a.topIndex? with
    | some j => rw [(hleast j hfound).unique hi]
    | none =>
        obtain ⟨⟨top, htop, -⟩, -⟩ := hi
        rw [topIndex?, Option.map_eq_none_iff, top?_eq_none_iff] at hfound
        rw [hfound] at htop
        contradiction

/-- The level of a frame and the position of its most dangerous object. -/
structure SelectsTop (a : FrameAssessment) : Prop where
  level_ge : ∀ o ∈ a.objects, o.metrics.level ≤ a.level
  level_mem : a.objects ≠ [] → ∃ o ∈ a.objects, o.metrics.level = a.level
  level_empty : a.objects = [] → a.level = .safe
  found : a.topIndex? = none ↔ a.objects = []
  placed : ∀ i, a.topIndex? = some i → a.topObject? = a.objects[i]?
  least : (∀ o ∈ a.objects, IsNumber o.metrics.score) →
    ∀ i, a.topIndex? = some i ↔ IsLeast {j | a.TopAt j} i

theorem selectsTop (a : FrameAssessment) : a.SelectsTop where
  level_ge o ho := by
    cases htop : a.topObject? with
    | none =>
        rw [topObject?_eq_none_iff.mp htop] at ho
        contradiction
    | some top =>
        rw [level, htop]
        exact level_le_of_not_outranks ((leads_topObject htop).not_outranked o ho)
  level_mem hne := by
    obtain ⟨top, htop⟩ := Option.ne_none_iff_exists'.mp (mt topObject?_eq_none_iff.mp hne)
    exact ⟨top, (leads_topObject htop).mem, by rw [level, htop]⟩
  level_empty hempty := by rw [level, topObject?_eq_none_iff.mpr hempty]
  found := by rw [topIndex?, Option.map_eq_none_iff, top?_eq_none_iff]
  placed _ hi := topObject?_of_topIndex? hi
  least hnumbers _ := topIndex?_eq_some_iff hnumbers

/-- The objects of an assessment are the pairs of its lists as far as both go. -/
theorem objects_ofLists (frame : Nat) (fps : Float) (detections : List Detection)
    (metrics : List RiskMetrics) :
    (ofLists frame fps detections metrics).objects.map (fun o => (o.detection, o.metrics)) =
      detections.zip metrics := by
  rw [ofLists, List.map_zipWith]
  rfl

end FrameAssessment

/-! ## The frames of a pipeline -/

namespace Pipeline

theorem scores_of_mem_assessments
    {settings : RiskSettings} {fpsSource : FpsSource} {capacity : Nat} {p : Pipeline}
    (hnew : ofSettings settings fpsSource capacity = .ok p) {frames : List Frame}
    {a : FrameAssessment} (ha : a ∈ p.assessments frames) :
    ∀ o ∈ a.objects, IsNumber o.metrics.score := by
  obtain ⟨hcheck, rfl⟩ := ofSettings_eq_ok_iff.mp hnew
  obtain ⟨taken, hmem, rfl⟩ := List.mem_map.mp ha
  obtain ⟨n, hn⟩ := List.mem_iff_getElem?.mp hmem
  obtain ⟨f, -, rfl⟩ := exists_step_of_getElem?_run hn
  have hadmissible : ((new settings fpsSource capacity).after
      (frames.take n)).engine.settings.Admissible := by
    rw [settings_after]
    exact RiskSettings.check_eq_ok_iff.mp hcheck
  intro o ho
  rw [step_objects, step_report] at ho
  obtain ⟨s, hs, rfl⟩ := List.mem_map.mp ho
  exact .right_of_le (RiskEngine.step_scores_hasPlusSign hadmissible _ s hs).nonneg

end Pipeline

/-- The level of a frame is the highest level of its objects, and among scores that are numbers its
most dangerous object is the first one of the greatest rank; so it is on every frame of a
pipeline. -/
theorem most_dangerous_object_selected :
    (∀ frame fps detections metrics,
      (FrameAssessment.ofLists frame fps detections metrics).SelectsTop ∧
        (FrameAssessment.ofLists frame fps detections metrics).objects.map
          (fun o => (o.detection, o.metrics)) = detections.zip metrics) ∧
      ∀ settings fpsSource capacity p, Pipeline.ofSettings settings fpsSource capacity = .ok p →
        ∀ frames, ∀ a ∈ p.assessments frames,
          a.SelectsTop ∧ (∀ o ∈ a.objects, IsNumber o.metrics.score) ∧
            ∀ i, a.topIndex? = some i ↔ IsLeast {j | a.TopAt j} i := by
  constructor
  · intro frame fps detections metrics
    exact ⟨FrameAssessment.selectsTop _, FrameAssessment.objects_ofLists frame fps _ _⟩
  · intro settings fpsSource capacity p hnew frames a ha
    have hnumbers := Pipeline.scores_of_mem_assessments hnew ha
    exact ⟨a.selectsTop, hnumbers, fun i => FrameAssessment.topIndex?_eq_some_iff hnumbers⟩

/-- A person aside and then two right ahead with the same box: the first of the two is found. -/
theorem most_dangerous_object_selected_tie :
    let aside : Detection := ⟨1, 0, "Person", 1, ⟨20, 100, 60, 160⟩⟩
    let ahead : Detection := ⟨2, 0, "Person", 1, ⟨260, 100, 380, 400⟩⟩
    let p := Pipeline.new .default (.constant 30) 16
    let frames : List Frame := [⟨⟨640, 480⟩, none, [aside, ahead, { ahead with trackId := 3 }]⟩]
    Pipeline.ofSettings .default (.constant 30) 16 = .ok p ∧
      (p.assessments frames).length = 1 ∧
      ∀ a ∈ p.assessments frames,
        a.topIndex? = some 1 ∧ a.level = .warn ∧ IsLeast {j | a.TopAt j} 1 := by
  intro aside ahead p frames
  have hnew : Pipeline.ofSettings .default (.constant 30) 16 = .ok p :=
    Pipeline.ofSettings_default (.constant 30) 16
  have hfound : (p.assessments frames).map (fun a => (a.topIndex?, a.level)) =
      [(some 1, .warn)] := by
    decide +kernel
  have hlength := congrArg List.length hfound
  rw [List.length_map] at hlength
  refine ⟨hnew, hlength, fun a ha => ?_⟩
  have hplace := List.mem_map_of_mem (f := fun a => (a.topIndex?, a.level)) ha
  rw [hfound, List.mem_singleton, Prod.mk.injEq] at hplace
  obtain ⟨-, -, hleast⟩ := most_dangerous_object_selected.2 _ _ _ p hnew frames a ha
  exact ⟨hplace.1, hplace.2, (hleast 1).mp hplace.1⟩

end ObstacleWatch
