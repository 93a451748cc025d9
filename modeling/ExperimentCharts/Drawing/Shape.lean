import ExperimentCharts.Binary64.Decimal
import ExperimentCharts.Binary64.Whole
import ExperimentCharts.Drawing.Outline

namespace ExperimentCharts

/-- A colour by its red, green and blue parts, from 0 to 255. -/
structure Color where
  red : Nat
  green : Nat
  blue : Nat
deriving DecidableEq

/-- Where a text stands relative to its point, across and along. -/
inductive HorizontalAnchor where
  | left
  | center
  | right
deriving DecidableEq

inductive VerticalAnchor where
  | top
  | center
  | bottom
deriving DecidableEq

/-- How far a text is turned clockwise about its point. -/
inductive Turn where
  | none
  | quarter
  | threeQuarters
deriving DecidableEq

/-- The font of all texts. -/
def fontFamily : String := "sans-serif"

/-- A text. Its letters are not drawn: it is the box that they fill, of half its size in height and in
    the width of each character. -/
structure Caption where
  text : String
  anchor : Point
  size : Nat
  font : String := fontFamily
  horizontal : HorizontalAnchor := .left
  vertical : VerticalAnchor := .top
  turn : Turn := .none
deriving DecidableEq

inductive Shape where
  /-- The pixels from `left` and `top` up to, but not at, `right` and `bottom`. -/
  | rectangle (left top right bottom : Int)
  /-- The area inside an outline. -/
  | polygon (corners : List Point)
  | disc (center : Point) (radius : Nat)
  | caption (words : Caption)
deriving DecidableEq

namespace Caption

/-- The width and height by which a text is anchored. -/
def extent (text : String) (size : Nat) : Nat × Nat := (text.length * size / 2, size * 100 / 124)

def contains (caption : Caption) (pixel : Point) : Bool :=
  let (width, height) := extent caption.text caption.size
  let shiftX : Int := match caption.horizontal with
    | .left => 0
    | .center => -(width / 2 : Nat)
    | .right => -width
  let shiftY : Int := match caption.vertical with
    | .top => 0
    | .center => -(height / 2 : Nat)
    | .bottom => -height
  let x := pixel.x - caption.anchor.x
  let y := pixel.y - caption.anchor.y
  let (x, y) := match caption.turn with
    | .none => (x, y)
    | .quarter => (y, -x)
    | .threeQuarters => (-y, x)
  0 ≤ x - shiftX && 2 * (x - shiftX) < caption.text.length * caption.size &&
  0 ≤ y - shiftY && 2 * (y - shiftY) < caption.size

end Caption

namespace Shape

/-- Whether a shape can have pixels in a row. -/
def mayReach (row : Int) : Shape → Bool
  | .rectangle _ top _ bottom => top ≤ row && row < bottom
  | .polygon corners => Outline.hasRow corners row
  | _ => true

def contains (pixel : Point) : Shape → Bool
  | .rectangle left top right bottom =>
    left ≤ pixel.x && pixel.x < right && top ≤ pixel.y && pixel.y < bottom
  | .polygon corners =>
    Outline.hasRow corners pixel.y && (Outline.stretch? corners pixel).isSome
  | .disc center radius =>
    let dx := pixel.x - center.x
    let dy := pixel.y - center.y
    dx * dx + dy * dy ≤ radius * radius
  | .caption words => words.contains pixel

/-- The pixels that are painted together with the given one, from the first to the last of a row, if the
    shape is painted by rows. -/
def rowStretch? (pixel : Point) : Shape → Option (Int × Int)
  | .rectangle left _ right _ => some (left, right - 1)
  | .polygon corners =>
    if Outline.isWide corners then none else Outline.stretch? corners pixel
  | _ => none

end Shape

/-- A shape with its colour, which covers what is below it by `opacity` 256ths. -/
structure Painted where
  shape : Shape
  color : Color
  opacity : Nat := 256
deriving DecidableEq

namespace Painted

/-- The opacity of a share between 0 and 1, in 256ths. -/
def opacityOf (share : Binary64) : Nat := ((256 * share).floor .unsigned32).toNat

/-- A part of a colour moved towards that of a paint, by the opacity times their distance. -/
def mix (opacity below above : Nat) : Nat :=
  if below < above then below + (above - below) * opacity / 256
  else below - (below - above) * opacity / 256

/-- The same, as the weighted mean of the two. -/
def blend (opacity below above : Nat) : Nat := (below * (256 - opacity) + above * opacity) / 256

/-- Rows are painted eight pixels at a time, as weighted means, except that the last one to eight pixels
    are painted one by one. -/
def inBlock (pixel : Point) (shape : Shape) : Bool :=
  match shape.rowStretch? pixel with
  | some (first, last) => pixel.x - first < (last - first) / 8 * 8
  | none => false

/-- The colour of a pixel after a paint over the colour below. -/
def cover (below : Color) (painted : Painted) (pixel : Point) : Color :=
  if !painted.shape.contains pixel then below
  else if painted.opacity = 256 then painted.color
  else
    let combine := (if inBlock pixel painted.shape then blend else mix) painted.opacity
    ⟨combine below.red painted.color.red, combine below.green painted.color.green,
     combine below.blue painted.color.blue⟩

end Painted

/-- The rectangle between the upper left corners of two pixels. -/
def Shape.between (a b : Point) : Shape :=
  .rectangle (min a.x b.x) (min a.y b.y) (max a.x b.x) (max a.y b.y)

/-- A line one pixel wide along an axis, from one pixel to another, with both ends. If it lets the ground
    through, it reaches from the upper left corner of the one to the lower right corner of the other, so
    that a line upwards or to the left leaves out its ends. -/
def thinLine (a b : Point) (color : Color) (opacity : Nat := 256) : Painted :=
  let first : Point := if opacity = 256 then ⟨min a.x b.x, min a.y b.y⟩ else a
  let last : Point := if opacity = 256 then ⟨max a.x b.x, max a.y b.y⟩ else b
  { shape := .between first ⟨last.x + 1, last.y + 1⟩, color, opacity }

/-- The area inside an outline. If all its corners lie in one column or row, it is a line. -/
def filled (corners : List Point) (color : Color) (opacity : Nat := 256) : Painted :=
  if Outline.isFlat corners then
    let (least, greatest) := Outline.box corners
    thinLine least greatest color opacity
  else { shape := .polygon corners, color, opacity }

/-- A picture: its size in pixels and what is painted on its white ground, in order. The pixel at the
    upper left is (0, 0), and y grows downwards. -/
structure Drawing where
  width : Nat
  height : Nat
  shapes : List Painted
deriving DecidableEq

namespace Drawing

/-- The colour of a pixel. -/
def colorAt (drawing : Drawing) (pixel : Point) : Color :=
  drawing.shapes.foldl (fun below painted => painted.cover below pixel) ⟨255, 255, 255⟩

/-- The drawing without the shapes that cannot have pixels in a row. -/
def onRow (drawing : Drawing) (row : Int) : Drawing :=
  { drawing with shapes := drawing.shapes.filter fun painted => painted.shape.mayReach row }

end Drawing

end ExperimentCharts
