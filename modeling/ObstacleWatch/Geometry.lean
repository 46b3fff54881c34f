import ObstacleWatch.Detection
import ObstacleWatch.Settings.Risk

/-!
# Geometry of a box in its frame

From a box and the size of its frame come the clamped sides, the centre bands it lies in, whether it
fills so much of the frame that it is mega-close, and the distance proxy: a number without a unit
that grows smaller as the object comes nearer.
-/

namespace ObstacleWatch

/-- The larger of a number and a bound; what is not a number counts as the bound. -/
def atLeast (bound x : Float) : Float :=
  if bound < x then x else bound

/-- The centre lies in the middle `ratio` of a frame `frameWidth` pixels wide. -/
def inBand (center frameWidth ratio : Float) : Bool :=
  let left := (1 - ratio) * 0.5 * frameWidth
  let right := frameWidth - left
  decide (left ≤ center) && decide (center ≤ right)

/-- The weighted sum of the inverse height, the inverse side of a square of the same area, and the
gap between the bottom of the box and the bottom of the frame. -/
def distanceProxy (boxHeight area bottom frameHeight : Float) : Float :=
  let inverseHeight := 1 / atLeast 1 boxHeight
  let inverseSide := 1 / atLeast 1 area.sqrt
  let bottomGap := atLeast 0 ((frameHeight - bottom) / atLeast 1 frameHeight)
  0.60 * inverseHeight + 0.25 * inverseSide + 0.15 * bottomGap

/-- The measures of a box that the assessment uses. -/
structure BoxGeometry where
  /-- The width, at least one pixel. -/
  boxWidth : Float
  /-- The height, at least one pixel. -/
  boxHeight : Float
  area : Float
  centerX : Float
  inCenter : Bool
  inNearCenter : Bool
  /-- The distance proxy of this frame alone. -/
  distance : Float
  megaClose : Bool

namespace BoxGeometry

def measure (settings : RiskSettings) (size : FrameSize) (d : Detection) : BoxGeometry :=
  let width := size.widthPx
  let height := size.heightPx
  let boxWidth := atLeast 1 (widen d.box.right - widen d.box.left)
  let boxHeight := atLeast 1 (widen d.box.bottom - widen d.box.top)
  let area := boxWidth * boxHeight
  { boxWidth
    boxHeight
    area
    centerX := d.centerX
    inCenter := inBand d.centerX width settings.centerBandRatio
    inNearCenter := inBand d.centerX width settings.nearCenterBandRatio
    distance := distanceProxy boxHeight area d.bottomY height
    megaClose :=
      decide (settings.megaCloseHeightRatio ≤ boxHeight / atLeast 1 height) ||
        decide (settings.megaCloseAreaRatio ≤ area / atLeast 1 (width * height)) }

end BoxGeometry

end ObstacleWatch
