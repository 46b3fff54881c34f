import ObstacleWatch.Proofs.BoxMeasures
import ObstacleWatch.Proofs.EdgeRange

/-!
# The range of the distance proxy

The proxy of a box is not negative, and it is finite and far from the largest double for every box
but one kind: the lower edge at minus infinity, which makes the gap to the bottom of the frame
infinite.  Lower edges that are not numbers or plus infinity count as no gap at all.
-/

namespace ObstacleWatch

namespace Detection

/-- The lower edge of the box lies infinitely far above the frame. -/
def BottomAtMinusInfinity (d : Detection) : Prop :=
  d.bottomY.isInf = true ∧ d.bottomY < 0

instance : DecidablePred BottomAtMinusInfinity :=
  fun _ => inferInstanceAs (Decidable (_ ∧ _))

theorem bottomAtMinusInfinity_iff {d : Detection} :
    d.BottomAtMinusInfinity ↔ value d.bottomY = ⊥ := by
  unfold BottomAtMinusInfinity
  rw [isInf_iff, lt_iff_value, value_zero]
  constructor
  · rintro ⟨htop | hbot, -, -, hnegative⟩
    · rw [htop] at hnegative
      exact absurd hnegative not_top_lt
    · exact hbot
  · intro hbot
    have hnumber : IsNumber d.bottomY := isNumber_of_value_ne_zero (hbot ▸ EReal.bot_ne_zero)
    exact ⟨.inr hbot, hnumber, isNumber_zero, hbot ▸ EReal.bot_lt_zero⟩

end Detection

/-! ## The gap below the box -/

def bottomGap (bottom frameHeight : Float) : Float :=
  atLeast 0 ((frameHeight - bottom) / atLeast 1 frameHeight)

theorem atLeast_of_lt {bound x : Float} (hlt : bound < x) : atLeast bound x = x := by
  rw [atLeast, if_pos hlt]

theorem atLeast_of_not_lt {bound x : Float} (hlt : ¬bound < x) : atLeast bound x = bound := by
  rw [atLeast, if_neg hlt]

theorem value_atLeast_one_ne_zero (x : Float) : value (atLeast 1 x) ≠ 0 :=
  (zero_lt_one.trans_le (one_le_iff_value.mp (one_le_atLeast x)).2).ne'

theorem isWithin_bottomGap {bottom frameHeight : Float}
    (hheight : IsWithin 4294967296 frameHeight) (hbottom : IsNumber bottom → -4e38 ≤ bottom) :
    IsWithin 5e38 (bottomGap bottom frameHeight) := by
  refine ⟨zero_le_atLeast _, ?_, by decide +kernel⟩
  unfold bottomGap
  by_cases hpos : 0 < (frameHeight - bottom) / atLeast 1 frameHeight
  · rw [atLeast_of_lt hpos]
    have hquotient : IsNumber ((frameHeight - bottom) / atLeast 1 frameHeight) := .right_of_lt hpos
    have hdifference := (hquotient.of_div (value_atLeast_one_ne_zero frameHeight)).1
    have hgap : frameHeight - bottom ≤ 4294967296 - -4e38 :=
      float_sub_le_sub hheight.isFinite hheight.finite hheight.le (hbottom hdifference.of_sub.2)
    have hbound : (4294967296 - -4e38 : Float) ≤ 5e38 := by decide +kernel
    exact float_div_le (float_le_trans hgap hbound) (by decide +kernel) (one_le_atLeast _)
      hquotient
  · rw [atLeast_of_not_lt hpos]
    exact by decide +kernel

theorem isFinite_atLeast {bound x : Float} (hbound : bound.isFinite = true)
    (hx : x.isFinite = true) : (atLeast bound x).isFinite = true := by
  unfold atLeast
  split
  · exact hx
  · exact hbound

theorem value_bottomGap_eq_top {bottom frameHeight : Float} (hheight : frameHeight.isFinite = true)
    (hbottom : value bottom = ⊥) : value (bottomGap bottom frameHeight) = ⊤ := by
  have hbottomNumber : IsNumber bottom :=
    isNumber_of_value_ne_zero (hbottom ▸ EReal.bot_ne_zero)
  have hdifference := isNumber_sub_of_isFinite hheight hbottomNumber
  have htop : value (frameHeight - bottom) = ⊤ := by
    rw [value_sub hdifference, hbottom, EReal.sub_bot (isFinite_iff.mp hheight).2.2, rounded_top]
  have hscale : (atLeast 1 frameHeight).isFinite = true := isFinite_atLeast rfl hheight
  have hscalePos : 0 < value (atLeast 1 frameHeight) :=
    zero_lt_one.trans_le (one_le_iff_value.mp (one_le_atLeast frameHeight)).2
  have hquotient : IsNumber ((frameHeight - bottom) / atLeast 1 frameHeight) :=
    isNumber_div hdifference (.of_isFinite hscale) hscalePos.ne' (.inr hscale)
  have hvalue : value ((frameHeight - bottom) / atLeast 1 frameHeight) = ⊤ := by
    rw [value_div hscalePos.ne' hquotient, htop,
      EReal.top_div_of_pos_ne_top hscalePos (isFinite_iff.mp hscale).2.1, rounded_top]
  have hpos : 0 < (frameHeight - bottom) / atLeast 1 frameHeight :=
    pos_iff_value.mpr ⟨hquotient, hvalue ▸ EReal.zero_lt_top⟩
  rw [bottomGap, atLeast_of_lt hpos, hvalue]

/-! ## The proxy -/

theorem isWithin_inverse_atLeast_one (x : Float) : IsWithin 1 (1 / atLeast 1 x) := by
  have hone : (1 : Float) ≤ 1 := by decide +kernel
  have hpos : (0 : Float) < 1 := by decide +kernel
  have hinverse := inverse_atLeast_nonneg hpos x
  exact ⟨hinverse,
    float_div_le hone (float_le_of_lt hpos) (one_le_atLeast x) (.right_of_le hinverse), rfl⟩

/-- The bound of all finite proxies. -/
def proxyBound : Float := 1e40

namespace BoxGeometry

variable (settings : RiskSettings) (size : FrameSize) {d : Detection}

theorem isWithin_distance (hd : ¬d.BottomAtMinusInfinity) :
    IsWithin proxyBound (measure settings size d).distance := by
  have hgap : IsWithin 5e38 (bottomGap d.bottomY size.heightPx) := by
    refine isWithin_bottomGap (isWithin_heightPx size) fun hnumber => le_widen hnumber ?_
    exact fun hbottom => hd (Detection.bottomAtMinusInfinity_iff.mpr hbottom)
  have hheightPart := (isWithin_self (a := 0.60) (by decide +kernel) (by decide +kernel)).mul
    (isWithin_inverse_atLeast_one (measure settings size d).boxHeight) (c := 1)
    (by decide +kernel) rfl
  have hsidePart := (isWithin_self (a := 0.25) (by decide +kernel) (by decide +kernel)).mul
    (isWithin_inverse_atLeast_one (measure settings size d).area.sqrt) (c := 1)
    (by decide +kernel) rfl
  have hgapPart := (isWithin_self (a := 0.15) (by decide +kernel) (by decide +kernel)).mul hgap
    (c := 1e38) (by decide +kernel) (by decide +kernel)
  exact (hheightPart.add hsidePart (c := 2) (by decide +kernel) rfl).add hgapPart
    (by decide +kernel) (by decide +kernel)

/-- Of all boxes, only those with the lower edge at minus infinity have a proxy that is not
finite. -/
theorem isFinite_distance_iff :
    (measure settings size d).distance.isFinite = true ↔ ¬d.BottomAtMinusInfinity := by
  constructor
  · intro hfinite hbottom
    have hgap : (bottomGap d.bottomY size.heightPx).isFinite = true :=
      (isFinite_of_mul (isFinite_of_add hfinite).2).2
    have htop := value_bottomGap_eq_top (isWithin_heightPx size).isFinite
      (Detection.bottomAtMinusInfinity_iff.mp hbottom)
    exact (isFinite_iff.mp hgap).2.1 htop
  · exact fun hbottom => (isWithin_distance settings size hbottom).isFinite

end BoxGeometry

end ObstacleWatch
