import ObstacleWatch.Assessment
import ObstacleWatch.Proofs.GateHistory
import ObstacleWatch.Proofs.SoundMetrics

/-!
# The most dangerous object

The most dangerous object of a frame is found in one pass, in which an object takes the lead by
outranking the leader.  Outranking is transitive, so nothing outranks the leader in the end.  Two
objects of which neither outranks the other have the same level and the same score: scores are
numbers, and none of them is the negative zero.  So the level of a frame and its highest score do
not depend on the order of its objects, although the most dangerous object can.
-/

namespace ObstacleWatch

variable {settings : RiskSettings}

/-! ## Ranks -/

namespace AssessedObject

variable {a b c : AssessedObject}

theorem not_outranks_self (a : AssessedObject) : ¬a.Outranks a := by
  rintro (hlevel | ⟨-, hscore⟩)
  · exact Nat.lt_irrefl _ hlevel
  · obtain ⟨-, -, hlt⟩ := lt_iff_value.mp hscore
    exact lt_irrefl _ hlt

theorem Outranks.trans (hab : a.Outranks b) (hbc : b.Outranks c) : a.Outranks c := by
  rcases hab with hab | ⟨hab, hscore⟩
  · rcases hbc with hbc | ⟨hbc, -⟩
    · exact Or.inl (Nat.lt_trans hbc hab)
    · exact Or.inl (hbc ▸ hab)
  · rcases hbc with hbc | ⟨hbc, hscore'⟩
    · exact Or.inl (hab ▸ hbc)
    · exact Or.inr ⟨hab.trans hbc, float_lt_of_lt_of_le hscore' (float_le_of_lt hscore)⟩

theorem level_eq_of_not_outranks (hab : ¬a.Outranks b) (hba : ¬b.Outranks a) :
    a.metrics.level = b.metrics.level := by
  have hle : ¬b.metrics.level < a.metrics.level := fun hlt => hab (Or.inl hlt)
  have hge : ¬a.metrics.level < b.metrics.level := fun hlt => hba (Or.inl hlt)
  apply DangerLevel.eq_of_rank_eq
  rw [DangerLevel.lt_iff_rank_lt] at hle hge
  omega

theorem score_eq_of_not_outranks (ha : HasPlusSign a.metrics.score)
    (hb : HasPlusSign b.metrics.score) (hab : ¬a.Outranks b) (hba : ¬b.Outranks a) :
    a.metrics.score = b.metrics.score := by
  have hlevel := level_eq_of_not_outranks hab hba
  exact float_eq_of_not_lt (.right_of_le ha.nonneg) (.right_of_le hb.nonneg) ha.ne_neg_zero
    hb.ne_neg_zero (fun hlt => hba (Or.inr ⟨hlevel.symm, hlt⟩))
    fun hlt => hab (Or.inr ⟨hlevel, hlt⟩)

end AssessedObject

/-! ## The leader -/

namespace FrameAssessment

open AssessedObject

/-- An object takes the lead by outranking the leader, so the last leader outranks all before. -/
theorem leader_eq_or_outranks (best : Nat × AssessedObject) (position : Nat)
    (os : List AssessedObject) :
    leader best position os = best ∨ (leader best position os).2.Outranks best.2 := by
  induction os generalizing best position with
  | nil => exact Or.inl rfl
  | cons o os ih =>
      rw [leader]
      by_cases hbetter : o.Outranks best.2
      · rw [if_pos hbetter]
        rcases ih (position, o) (position + 1) with heq | houtranks
        · rw [heq]
          exact Or.inr hbetter
        · exact Or.inr (houtranks.trans hbetter)
      · rw [if_neg hbetter]
        exact ih best (position + 1)

/-- The object is one of some objects, and none of them outranks it. -/
structure Leads (top : AssessedObject) (objects : List AssessedObject) : Prop where
  mem : top ∈ objects
  not_outranked : ∀ o ∈ objects, ¬o.Outranks top

theorem leads_leader (best : Nat × AssessedObject) (position : Nat) (os : List AssessedObject) :
    Leads (leader best position os).2 (best.2 :: os) := by
  induction os generalizing best position with
  | nil => exact ⟨List.mem_cons_self, List.forall_mem_singleton.mpr (not_outranks_self _)⟩
  | cons o os ih =>
      rw [leader]
      by_cases hbetter : o.Outranks best.2
      · rw [if_pos hbetter]
        obtain ⟨hmem, hnone⟩ := ih (position, o) (position + 1)
        refine ⟨List.mem_cons_of_mem _ hmem, List.forall_mem_cons.mpr ⟨?_, hnone⟩⟩
        intro houtranks
        -- `o` outranks the old leader, so it would have to outrank the last one as well.
        exact hnone o List.mem_cons_self (hbetter.trans houtranks)
      · rw [if_neg hbetter]
        obtain ⟨hmem, hnone⟩ := ih best (position + 1)
        obtain ⟨hbest, hrest⟩ := List.forall_mem_cons.mp hnone
        refine ⟨(List.sublist_cons_self o os).cons_cons best.2 |>.subset hmem,
          List.forall_mem_cons.mpr ⟨hbest, List.forall_mem_cons.mpr ⟨?_, hrest⟩⟩⟩
        intro houtranks
        -- What outranks the last leader outranks every leader before it.
        rcases leader_eq_or_outranks best (position + 1) os with heq | hlater
        · exact hbetter (heq ▸ houtranks)
        · exact hbetter (houtranks.trans hlater)

theorem leads_topObject {a : FrameAssessment} {top : AssessedObject}
    (htop : a.topObject? = some top) : Leads top a.objects := by
  rw [topObject?, Option.map_eq_some_iff] at htop
  obtain ⟨placed, hplaced, rfl⟩ := htop
  rw [top?] at hplaced
  split at hplaced
  · contradiction
  · next o os hobjects =>
      rw [Option.some.injEq] at hplaced
      rw [hobjects, ← hplaced]
      exact leads_leader (0, o) 1 os

/-! ## Frames with the same objects -/

theorem not_outranks_of_perm {a b : FrameAssessment} (hperm : a.objects.Perm b.objects)
    {top₁ top₂ : AssessedObject} (htop₁ : a.topObject? = some top₁)
    (htop₂ : b.topObject? = some top₂) : ¬top₁.Outranks top₂ ∧ ¬top₂.Outranks top₁ := by
  have hlead₁ := leads_topObject htop₁
  have hlead₂ := leads_topObject htop₂
  exact ⟨hlead₂.not_outranked top₁ (hperm.subset hlead₁.mem),
    hlead₁.not_outranked top₂ (hperm.symm.subset hlead₂.mem)⟩

theorem topObject_cases_of_perm {a b : FrameAssessment} (hperm : a.objects.Perm b.objects) :
    (a.topObject? = none ∧ b.topObject? = none) ∨
      ∃ top₁ top₂, a.topObject? = some top₁ ∧ b.topObject? = some top₂ := by
  cases htop₁ : a.topObject? with
  | none =>
      have hnone := topObject?_eq_none_iff.mp htop₁
      rw [hnone, List.nil_perm] at hperm
      exact Or.inl ⟨rfl, topObject?_eq_none_iff.mpr hperm⟩
  | some top₁ =>
      cases htop₂ : b.topObject? with
      | none =>
          have hnone := topObject?_eq_none_iff.mp htop₂
          rw [hnone, List.perm_nil] at hperm
          rw [topObject?_eq_none_iff.mpr hperm] at htop₁
          contradiction
      | some top₂ => exact Or.inr ⟨top₁, top₂, rfl, rfl⟩

theorem level_eq_of_perm {a b : FrameAssessment} (hperm : a.objects.Perm b.objects) :
    a.level = b.level := by
  rw [level, level]
  rcases topObject_cases_of_perm hperm with ⟨hnone₁, hnone₂⟩ | ⟨top₁, top₂, htop₁, htop₂⟩
  · rw [hnone₁, hnone₂]
  · obtain ⟨h₁, h₂⟩ := not_outranks_of_perm hperm htop₁ htop₂
    rw [htop₁, htop₂]
    exact level_eq_of_not_outranks h₁ h₂

/-- Two frames with the same objects have the same highest score, down to the last bit. -/
theorem topScore_eq_of_perm {a b : FrameAssessment} (hperm : a.objects.Perm b.objects)
    (hscores : ∀ o ∈ a.objects, HasPlusSign o.metrics.score) :
    a.topObject?.map (·.metrics.score) = b.topObject?.map (·.metrics.score) := by
  rcases topObject_cases_of_perm hperm with ⟨hnone₁, hnone₂⟩ | ⟨top₁, top₂, htop₁, htop₂⟩
  · rw [hnone₁, hnone₂]
  · obtain ⟨h₁, h₂⟩ := not_outranks_of_perm hperm htop₁ htop₂
    have hscore₁ := hscores top₁ (leads_topObject htop₁).mem
    have hscore₂ := hscores top₂ (hperm.symm.subset (leads_topObject htop₂).mem)
    rw [htop₁, htop₂, Option.map_some, Option.map_some,
      score_eq_of_not_outranks hscore₁ hscore₂ h₁ h₂]

end FrameAssessment

end ObstacleWatch
