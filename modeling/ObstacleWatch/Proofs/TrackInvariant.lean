import ObstacleWatch.Proofs.EngineRun

/-!
# What every track has

A property that a detection gives to the track it starts, and keeps on a track it continues, holds
for every track an engine ever stores, whether its object is recognised or not.  So every sighting
of a run continues a track with the property, or starts one.
-/

namespace ObstacleWatch

/-- A detection leaves a track with a property, if the track it continues had it or if it starts
the track. -/
def KeptBySights (settings : RiskSettings) (P : Track → Prop) : Prop :=
  ∀ ctx key slot d, (∀ t, slot = some t → P t) → P (slotSight settings ctx key slot d).1

namespace TrackMap

def Everywhere (P : Track → Prop) (m : TrackMap) : Prop :=
  ∀ key t, m.get? key = some t → P t

variable {P : Track → Prop} {m : TrackMap}

theorem everywhere_empty (P : Track → Prop) : empty.Everywhere P := by
  intro key t hfound
  rw [get?_empty] at hfound
  contradiction

theorem Everywhere.filter (hm : m.Everywhere P) (keep : TrackKey × Track → Bool) :
    (m.filter keep).Everywhere P := by
  intro key t hfound
  rw [get?_filter, Option.filter_eq_some_iff] at hfound
  exact hm key t hfound.1

theorem Everywhere.insert (hm : m.Everywhere P) {t : Track} (ht : P t) (key : TrackKey) :
    (m.insert key t).Everywhere P := by
  intro other u hfound
  by_cases hkey : other = key
  · rw [hkey, get?_insert_self, Option.some.injEq] at hfound
    exact hfound ▸ ht
  · rw [get?_insert_of_ne m other hkey] at hfound
    exact hm other u hfound

theorem Everywhere.dropEphemeral (hm : m.Everywhere P) (ss : List Sighting) :
    (ObstacleWatch.dropEphemeral m ss).Everywhere P := by
  unfold ObstacleWatch.dropEphemeral
  induction ss.filter (·.key.isEphemeral) generalizing m with
  | nil => exact hm
  | cons s rest ih => exact ih (hm.filter _)

end TrackMap

variable {settings : RiskSettings} {P : Track → Prop}

theorem KeptBySights.sightAll (hP : KeptBySights settings P) (ctx : FrameContext)
    {m : TrackMap} (hm : m.Everywhere P) (position : Nat) (ds : List Detection) :
    (sightAll settings ctx position m ds).1.Everywhere P ∧
      ∀ s ∈ (sightAll settings ctx position m ds).2, ∃ key slot,
        (∀ t, slot = some t → P t) ∧ s = (slotSight settings ctx key slot s.detection).2 := by
  induction ds generalizing position m with
  | nil => exact ⟨hm, by simp⟩
  | cons d ds ih =>
      let key := TrackKey.ofDetection ctx.index position d
      have hsight : (sight settings ctx position m d).1.Everywhere P := by
        rw [sight_eq]
        exact hm.insert (hP ctx key (m.get? key) d (hm key)) key
      obtain ⟨hrest, hsightings⟩ := ih hsight (position + 1)
      rw [sightAll_cons]
      refine ⟨hrest, List.forall_mem_cons.mpr ⟨?_, hsightings⟩⟩
      exact ⟨key, m.get? key, hm key, by rw [sight_eq]; rfl⟩

namespace RiskEngine

theorem everywhere_step (hP : KeptBySights settings P) {e : RiskEngine}
    (he : e.settings = settings ∧ e.tracks.Everywhere P) (f : EngineFrame) :
    (e.step f).engine.settings = settings ∧ (e.step f).engine.tracks.Everywhere P := by
  obtain ⟨rfl, htracks⟩ := he
  refine ⟨rfl, ?_⟩
  have hsighted := (hP.sightAll f.context htracks 0 f.detections).1
  exact (hsighted.dropEphemeral _).filter _

/-- Every sighting of a run continues a track that has what tracks keep, or starts one. -/
theorem exists_slot_of_mem_run
    {engine : RiskEngine} (hnew : ofSettings settings = .ok engine) (hP : KeptBySights settings P)
    {frames : List EngineFrame} {taken : EngineStep} (hmem : taken ∈ engine.run frames)
    {s : Sighting} (hs : s ∈ taken.report.sightings) :
    ∃ key slot, (∀ t, slot = some t → P t) ∧
      s = (slotSight settings taken.frame.context key slot s.detection).2 := by
  obtain ⟨-, rfl⟩ := ofSettings_eq_ok_iff.mp hnew
  obtain ⟨before, ⟨hsettings, htracks⟩, htaken⟩ :=
    exists_step_of_mem_run (P := fun e => e.settings = settings ∧ e.tracks.Everywhere P)
      (fun _ f he => everywhere_step hP he f) ⟨rfl, TrackMap.everywhere_empty P⟩ hmem
  rw [htaken, step_sightings, hsettings] at hs
  exact (hP.sightAll taken.frame.context htracks 0 taken.frame.detections).2 s hs

end RiskEngine

end ObstacleWatch
