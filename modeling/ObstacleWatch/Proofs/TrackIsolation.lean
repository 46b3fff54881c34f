import Mathlib.Data.List.Forall2
import ObstacleWatch.Proofs.TrackProjection

/-!
# Tracks do not interfere

Two runs that give a tracked object the same detections on the same frames report the same metrics
for it and store the same track, whatever else the frames hold.  Each run projects to the run of the
object's slot, and the slot reads nothing in which the two runs differ: on a frame without the
object it reads the number of the frame alone.
-/

namespace ObstacleWatch

/-- Two frames agree on a tracked object: they have the same number and the same detections of the
object, and if there are any, also the same size and frame rate. -/
structure AgreeOn (name : String) (id : Int) (f₁ f₂ : EngineFrame) : Prop where
  index : f₁.context.index = f₂.context.index
  detections :
    f₁.detections.filter (fun d => d.Shows name id) =
      f₂.detections.filter fun d => d.Shows name id
  context : f₁.detections.filter (fun d => d.Shows name id) ≠ [] →
    f₁.context.size = f₂.context.size ∧ f₁.context.fps = f₂.context.fps

/-- Two frames of two runs tell the same about a tracked object. -/
structure TellSame (name : String) (id : Int) (taken₁ taken₂ : EngineStep) : Prop where
  metrics :
    taken₁.metricsOf (Detection.Shows name id) = taken₂.metricsOf (Detection.Shows name id)
  track :
    taken₁.engine.tracks.get? (.object name id) = taken₂.engine.tracks.get? (.object name id)

variable {name : String} {id : Int} {f₁ f₂ : EngineFrame} {frames₁ frames₂ : List EngineFrame}

theorem slotStep_nil (settings : RiskSettings) (key : TrackKey) (slot : Option Track)
    (ctx : FrameContext) :
    slotStep settings key slot ⟨ctx, []⟩ = (slotReap settings ctx.index slot, []) := rfl

theorem AgreeOn.slotStep_eq
    (hagree : AgreeOn name id f₁ f₂) (settings : RiskSettings) (key : TrackKey)
    (slot : Option Track) :
    slotStep settings key slot (f₁.restrict (Detection.Shows name id)) =
      slotStep settings key slot (f₂.restrict (Detection.Shows name id)) := by
  unfold EngineFrame.restrict
  rw [← hagree.detections]
  by_cases hnone : f₁.detections.filter (fun d => d.Shows name id) = []
  · rw [hnone, slotStep_nil, slotStep_nil, hagree.index]
  · obtain ⟨hsize, hfps⟩ := hagree.context hnone
    have hcontext : f₁.context = f₂.context := by
      cases hc₁ : f₁.context
      cases hc₂ : f₂.context
      have hindex := hagree.index
      simp only [hc₁, hc₂] at hsize hfps hindex
      rw [hsize, hfps, hindex]
    rw [hcontext]

theorem slotRun_eq_of_agreeOn
    (hagree : List.Forall₂ (AgreeOn name id) frames₁ frames₂)
    (settings : RiskSettings) (key : TrackKey) (slot : Option Track) :
    slotRun settings key slot (frames₁.map fun f => f.restrict (Detection.Shows name id)) =
      slotRun settings key slot (frames₂.map fun f => f.restrict (Detection.Shows name id)) := by
  induction hagree generalizing slot with
  | nil => rfl
  | cons hhead _ ih =>
      simp only [List.map_cons, slotRun]
      rw [hhead.slotStep_eq settings key slot, ih]

theorem run_agree_of_agreeOn
    (engine : RiskEngine) (hagree : List.Forall₂ (AgreeOn name id) frames₁ frames₂) :
    List.Forall₂ (TellSame name id) (engine.run frames₁) (engine.run frames₂) := by
  let view : EngineStep → Option Track × List RiskMetrics := fun taken =>
    (taken.engine.tracks.get? (.object name id), taken.metricsOf (Detection.Shows name id))
  have hview (frames : List EngineFrame) :
      (engine.run frames).map view =
        (slotRun engine.settings (.object name id) (engine.tracks.get? (.object name id))
          (frames.map fun f => f.restrict (Detection.Shows name id))).map
            (fun out => (out.1, out.2.map (·.metrics))) := by
    rw [← run_project, List.map_map]
    apply List.map_congr_left
    intro taken hmem
    exact Prod.ext rfl (metricsOf_shows name id hmem)
  have hequal : (engine.run frames₁).map view = (engine.run frames₂).map view := by
    rw [hview, hview, slotRun_eq_of_agreeOn hagree]
  have hpairs := List.forall₂_eq_eq_eq ▸ hequal
  rw [List.forall₂_map_left_iff, List.forall₂_map_right_iff] at hpairs
  exact hpairs.imp fun _ _ heq => ⟨(Prod.ext_iff.mp heq).2, (Prod.ext_iff.mp heq).1⟩

/-- A person alone, and the same person behind a stranger and a cart with the same number.  On the
second frame the person is gone, and the two runs differ in everything else. -/
theorem run_agree_of_agreeOn_crowd :
    let person : Detection := ⟨1, 0, "Person", 1, ⟨260, 100, 380, 400⟩⟩
    let cart : Detection := ⟨1, 1, "Cart", 1, ⟨20, 100, 60, 160⟩⟩
    let stranger : Detection := ⟨-1, 0, "Person", 1, ⟨260, 100, 380, 400⟩⟩
    let alone : List EngineFrame :=
      [⟨⟨⟨640, 480⟩, 0, 30⟩, [person]⟩, ⟨⟨⟨640, 480⟩, 1, 30⟩, []⟩]
    let crowd : List EngineFrame :=
      [⟨⟨⟨640, 480⟩, 0, 30⟩, [stranger, cart, person]⟩, ⟨⟨⟨320, 200⟩, 1, 5⟩, [cart, stranger]⟩]
    List.Forall₂ (AgreeOn "Person" 1) alone crowd ∧
      List.Forall₂ (TellSame "Person" 1)
        (RiskEngine.run ⟨.default, .empty, 0⟩ alone)
        (RiskEngine.run ⟨.default, .empty, 0⟩ crowd) := by
  intro person cart stranger alone crowd
  have hagree : List.Forall₂ (AgreeOn "Person" 1) alone crowd :=
    .cons ⟨rfl, rfl, fun _ => ⟨rfl, rfl⟩⟩
      (.cons ⟨rfl, rfl, fun hshown => absurd rfl hshown⟩ .nil)
  exact ⟨hagree, run_agree_of_agreeOn _ hagree⟩

end ObstacleWatch
