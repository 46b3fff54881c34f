import ObstacleWatch.Geometry
import ObstacleWatch.Proofs.FloatBounds

/-!
# Measures of any box

A lower bound holds whatever it is applied to, so the sides and the area of a box are at least one
pixel and the distance proxy is not negative, even for a box with edges that are not numbers.
-/

namespace ObstacleWatch

variable {bound : Float}

theorem le_atLeast (hbound : IsNumber bound) (x : Float) : bound ≤ atLeast bound x := by
  unfold atLeast
  by_cases hlt : bound < x
  · rw [if_pos hlt]
    exact float_le_of_lt hlt
  · rw [if_neg hlt]
    exact float_le_refl hbound

theorem self_le_atLeast {x : Float} (hbound : IsNumber bound) (hx : IsNumber x) :
    x ≤ atLeast bound x := by
  unfold atLeast
  split
  · exact float_le_refl hx
  · next hlt => exact float_le_of_not_lt hbound hx hlt

theorem atLeast_le_atLeast (hbound : IsNumber bound) {x y : Float} (hxy : x ≤ y) :
    atLeast bound x ≤ atLeast bound y := by
  by_cases hlt : bound < x
  · rw [atLeast, if_pos hlt, atLeast, if_pos (float_lt_of_lt_of_le hlt hxy)]
    exact hxy
  · rw [atLeast, if_neg hlt]
    exact le_atLeast hbound y

theorem one_le_atLeast (x : Float) : 1 ≤ atLeast 1 x :=
  le_atLeast isNumber_one x

theorem zero_le_atLeast (x : Float) : 0 ≤ atLeast 0 x :=
  le_atLeast isNumber_zero x

theorem inverse_atLeast_nonneg (hbound : 0 < bound) (x : Float) : 0 ≤ 1 / atLeast bound x := by
  have hone : (0 : Float) ≤ 1 := by decide +kernel
  have hpos : 0 < atLeast bound x :=
    float_lt_of_lt_of_le hbound (le_atLeast (.right_of_lt hbound) x)
  exact float_div_nonneg hone hpos (.inl rfl)

theorem inverse_atLeast_le (hbound : 0 < bound) {x y : Float} (hxy : x ≤ y) :
    1 / atLeast bound y ≤ 1 / atLeast bound x := by
  have hnumber : IsNumber bound := .right_of_lt hbound
  have hpos : 0 < atLeast bound x := float_lt_of_lt_of_le hbound (le_atLeast hnumber x)
  exact float_div_le_div_left (by decide +kernel) rfl hpos (atLeast_le_atLeast hnumber hxy)

theorem distanceProxy_nonneg (boxHeight area bottom frameHeight : Float) :
    0 ≤ distanceProxy boxHeight area bottom frameHeight := by
  have hone : (0 : Float) < 1 := by decide +kernel
  have hheight : 0 ≤ 0.60 * (1 / atLeast 1 boxHeight) :=
    float_mul_nonneg_of_pos (by decide +kernel) (by decide +kernel)
      (inverse_atLeast_nonneg hone boxHeight)
  have hside : 0 ≤ 0.25 * (1 / atLeast 1 area.sqrt) :=
    float_mul_nonneg_of_pos (by decide +kernel) (by decide +kernel)
      (inverse_atLeast_nonneg hone area.sqrt)
  have hgap : 0 ≤ 0.15 * atLeast 0 ((frameHeight - bottom) / atLeast 1 frameHeight) :=
    float_mul_nonneg_of_pos (by decide +kernel) (by decide +kernel) (zero_le_atLeast _)
  exact float_add_nonneg (float_add_nonneg hheight hside) hgap

namespace BoxGeometry

variable (settings : RiskSettings) (size : FrameSize) (d : Detection)

theorem one_le_boxHeight : 1 ≤ (measure settings size d).boxHeight :=
  one_le_atLeast _

theorem one_le_area : 1 ≤ (measure settings size d).area :=
  float_one_le_mul (one_le_atLeast _) (one_le_atLeast _)

theorem distance_nonneg : 0 ≤ (measure settings size d).distance :=
  distanceProxy_nonneg _ _ _ _

end BoxGeometry

end ObstacleWatch
