import ExperimentCharts.Axis.Ticks
import ExperimentCharts.Binary64.Logarithm
import ExperimentCharts.Drawing.Shape
import ExperimentCharts.Figure

namespace ExperimentCharts

namespace Color

def black : Color := ⟨0, 0, 0⟩
def white : Color := ⟨255, 255, 255⟩
def pureRed : Color := ⟨255, 0, 0⟩
def pureBlue : Color := ⟨0, 0, 255⟩
def lightBlue : Color := ⟨173, 216, 230⟩
def lightSalmon : Color := ⟨255, 160, 122⟩
def lightGray : Color := ⟨211, 211, 211⟩
def darkGray : Color := ⟨169, 169, 169⟩
def darkGreen : Color := ⟨0, 128, 0⟩
def silver : Color := ⟨200, 200, 200⟩

/-- The cycle of colours for series. -/
def palette : List Color :=
  [⟨31, 119, 180⟩, ⟨255, 127, 14⟩, ⟨44, 160, 44⟩, ⟨214, 39, 40⟩, ⟨148, 103, 189⟩, ⟨140, 86, 75⟩,
   ⟨227, 119, 194⟩, ⟨127, 127, 127⟩, ⟨188, 189, 34⟩, ⟨23, 190, 207⟩]

/-- The colour of the series of the given index. -/
def ofIndex (index : Nat) : Color := palette.getD (index % palette.length) black

end Color

/-- How values are spread along an axis. -/
inductive Scale where
  | linear (lower upper : Binary64)
  | logarithmic (lower upper : Binary64)

/-- The pixels that a fraction of an axis is away from its start. The length is negative if the pixels
    count against the axis. -/
def pixelOffset (fraction : Binary64) (length : Int) : Int :=
  if fraction.isInfinite then (if 0 < fraction then length else 0)
  else if 0 < length then (.ofInt length * fraction + 0.001 : Binary64).floor .signed32
  else (.ofInt length * fraction - 0.001 : Binary64).ceil .signed32

/-- The pixel of a place between two ends, which have the given pixels. Without room between the ends,
    it is half as many pixels as there are between theirs. -/
def pixelBetween (lower upper place : Binary64) (first last : Int) : Int :=
  if lower.equal upper then (last - first).tdiv 2
  else first + pixelOffset ((place - lower) / (upper - lower)) (last - first)

/-- The pixel of a value on an axis whose ends have the given pixels. -/
def Scale.pixel (ln : Binary64 → Binary64) (value : Binary64) (first last : Int) : Scale → Int
  | .linear lower upper => pixelBetween lower upper value first last
  | .logarithmic lower upper => pixelBetween (ln lower) (ln upper) (ln value) first last

/-- An integer moved into a range. -/
def clampInt (value lower upper : Int) : Int := max lower (min upper value)

/-- The plotting area of a chart and the scales of its axes. The area reaches from `left` and `top` up
    to, but not at, `right` and `bottom`. -/
structure Frame where
  left : Int
  right : Int
  top : Int
  bottom : Int
  /-- The left edge of the space for the labels of the y axis. -/
  labelLeft : Int
  /-- The lower edge of the space for the labels of the x axis. -/
  labelBottom : Int
  xScale : Scale
  yScale : Scale
  ln : Binary64 → Binary64

namespace Frame

/-- The plotting area of a figure with margins and space for labels. -/
def within (size : Nat × Nat) (margin topMargin xLabels yLabels : Nat) (xScale yScale : Scale)
    (ln : Binary64 → Binary64) : Frame where
  left := margin + yLabels
  right := size.1 - margin
  top := topMargin
  bottom := size.2 - margin - xLabels
  labelLeft := margin
  labelBottom := size.2 - margin
  xScale := xScale
  yScale := yScale
  ln := ln

/-- The column of a value on the x axis. -/
def xPixel (frame : Frame) (value : Binary64) : Int :=
  frame.xScale.pixel frame.ln value frame.left (frame.right - 1)

/-- The row of a value on the y axis. -/
def yPixel (frame : Frame) (value : Binary64) : Int :=
  frame.yScale.pixel frame.ln value (frame.bottom - 1) frame.top

/-- A pixel moved into the plotting area. -/
def clip (frame : Frame) (point : Point) : Point :=
  ⟨clampInt point.x frame.left frame.right, clampInt point.y frame.top frame.bottom⟩

/-- The pixel of a point of a series, moved into the plotting area. -/
def place (frame : Frame) (point : Binary64 × Binary64) : Point :=
  frame.clip ⟨frame.xPixel point.1, frame.yPixel point.2⟩

end Frame

/-- A black text. -/
def blackText (caption : Caption) : Painted := ⟨.caption caption, .black, 256⟩

/-- A tick with its label. -/
structure Tick where
  value : Binary64
  label : String

/-- How the axes of a chart look. -/
structure Mesh where
  xTicks : List Tick
  yTicks : List Tick
  xTitle : String
  yTitle : String
  titleSize : Nat
  xSize : Nat
  ySize : Nat
  xTurn : Turn := .none
  gridColor : Color
  gridOpacity : Nat := 256
  tickLength : Nat

namespace Mesh

/-- The grid line at a tick of the x axis, upwards. -/
def columnLine (mesh : Mesh) (frame : Frame) (tick : Tick) : Painted :=
  let x := frame.xPixel tick.value
  thinLine ⟨x, frame.bottom - 1⟩ ⟨x, frame.top⟩ mesh.gridColor mesh.gridOpacity

/-- The grid line at a tick of the y axis. -/
def rowLine (mesh : Mesh) (frame : Frame) (tick : Tick) : Painted :=
  let y := frame.yPixel tick.value
  thinLine ⟨frame.left, y⟩ ⟨frame.right - 1, y⟩ mesh.gridColor mesh.gridOpacity

/-- The label and the mark of a tick of the x axis, if the tick lies on the axis. -/
def xTick (mesh : Mesh) (frame : Frame) (tick : Tick) : List Painted :=
  let x := frame.xPixel tick.value
  let length : Int := mesh.tickLength
  if frame.left ≤ x ∧ x ≤ frame.right - 1 then
    [blackText {
        text := tick.label
        anchor := ⟨x, frame.bottom + 2 * length⟩
        size := mesh.xSize
        horizontal := .center
        turn := mesh.xTurn },
     thinLine ⟨x, frame.bottom⟩ ⟨x, min (frame.bottom + length) frame.labelBottom⟩ .black]
  else []

/-- The label and the mark of a tick of the y axis, if the tick lies on the axis. -/
def yTick (mesh : Mesh) (frame : Frame) (tick : Tick) : List Painted :=
  let y := frame.yPixel tick.value
  let length : Int := mesh.tickLength
  if frame.top ≤ y ∧ y ≤ frame.bottom - 1 then
    [blackText {
        text := tick.label
        anchor := ⟨frame.left - 2 * length, y⟩
        size := mesh.ySize
        horizontal := .right
        vertical := .center },
     thinLine ⟨frame.left - 1 - length, y⟩ ⟨frame.left - 1, y⟩ .black]
  else []

/-- The title of the x axis, below the middle of the axis. -/
def xTitleCaption (mesh : Mesh) (frame : Frame) : Caption where
  text := mesh.xTitle
  anchor := ⟨frame.left + (frame.right - frame.left) / 2, frame.labelBottom⟩
  size := mesh.titleSize
  horizontal := .center
  vertical := .bottom

/-- The title of the y axis, upwards beside the middle of the axis. -/
def yTitleCaption (mesh : Mesh) (frame : Frame) : Caption where
  text := mesh.yTitle
  anchor := ⟨frame.labelLeft, frame.top + (frame.bottom - frame.top) / 2⟩
  size := mesh.titleSize
  horizontal := .center
  turn := .threeQuarters

/-- The titles of the axes, the grid, and the axes with their ticks. -/
def paint (mesh : Mesh) (frame : Frame) : List Painted :=
  [blackText (mesh.xTitleCaption frame), blackText (mesh.yTitleCaption frame)] ++
  mesh.xTicks.map (mesh.columnLine frame) ++
  mesh.yTicks.map (mesh.rowLine frame) ++
  [thinLine ⟨frame.left, frame.bottom⟩ ⟨frame.right - 1, frame.bottom⟩ .black] ++
  mesh.xTicks.flatMap (mesh.xTick frame) ++
  [thinLine ⟨frame.left - 1, frame.top⟩ ⟨frame.left - 1, frame.bottom - 1⟩ .black] ++
  mesh.yTicks.flatMap (mesh.yTick frame)

end Mesh

/-- A line of the legend: its label and the sample beside it, drawn from its left end. -/
structure LegendEntry where
  label : String
  sample : Point → List Painted

/-- The space left for samples. -/
def sampleSpace : Nat := 30

/-- How far below the first line a line of the legend starts, in pixels, after a margin. -/
def legendLine (size margin index : Nat) : Nat := margin + (5 * index * size + 2) / 4

/-- The legend in the upper left corner of the plotting area: its ground, its border, the labels and
    the samples. -/
def paintLegend (frame : Frame) (margin size : Nat) (entries : List LegendEntry) : List Painted :=
  let height : Nat := size * 100 / 124
  let widest := (entries.map fun entry => (Caption.extent entry.label size).1).foldl max 0
  let lowest := (entries.mapIdx fun index _ => legendLine size 0 index + height).foldl max 0
  let x := frame.left + 5
  let y := frame.top + 5
  let right := min (x + widest + sampleSpace + 2 * margin) frame.right
  let bottom := min (y + lowest + 2 * margin) frame.bottom
  let lines := entries.mapIdx fun index entry => (y + legendLine size margin index, entry)
  [⟨.rectangle x y right bottom, .white, Painted.opacityOf 0.8⟩,
   thinLine ⟨x, y⟩ ⟨x, bottom⟩ .lightGray, thinLine ⟨x, y⟩ ⟨right, y⟩ .lightGray,
   thinLine ⟨right, bottom⟩ ⟨x, bottom⟩ .lightGray,
   thinLine ⟨right, bottom⟩ ⟨right, y⟩ .lightGray] ++
  (lines.map fun line => blackText
    { text := line.2.label, anchor := ⟨x + sampleSpace + margin, line.1⟩, size }) ++
  lines.flatMap fun line =>
    line.2.sample ⟨x + margin, frame.top + ((line.1 - frame.top) * 2 + height) / 2⟩

end ExperimentCharts
