import ExperimentCharts.Bar.Data
import ExperimentCharts.Drawing.Frame

namespace ExperimentCharts.BarData

/-- The sizes of the chart's parts, in pixels. -/
def px (points : Binary64) : Nat := barFigure.px points

def frame (data : BarData) (layout : BarLayout) : Frame :=
  let range := data.xRange layout
  .within barFigure.pixels (px 6) (px 6) (px 90) (px 40) (.linear range.1 range.2)
    (.linear 0 barHeightLimit) id

/-- The ticks of the y axis, every half. -/
def yTicks : List Tick :=
  (List.range 7).map fun (index : Nat) =>
    ⟨(index : Binary64) / 2, toString (index / 2) ++ if index % 2 = 0 then ".0" else ".5"⟩

def mesh : Mesh where
  xTicks := []
  yTicks := yTicks
  xTitle := "Applications"
  yTitle := "Relative Run-time"
  titleSize := px 10
  xSize := 0
  ySize := px 10
  gridColor := .lightGray
  tickLength := px 3

/-- The mark and the name of an application, below the middle of its bars. -/
def paintLabel (frame : Frame) (label : Binary64 × String) : List Painted :=
  let x := frame.xPixel label.1
  let y := frame.yPixel 0
  let tick : Int := px 3
  [thinLine ⟨x, y⟩ ⟨x, y + tick⟩ .black,
   blackText {
     text := label.2
     anchor := ⟨x, y + 2 * tick⟩
     size := px 10
     vertical := .center
     turn := .quarter }]

/-- A filled rectangle between two corners. -/
def patch (a b : Point) (color : Color) : Painted :=
  ⟨.rectangle (min a.x b.x) (min a.y b.y) (max a.x b.x) (max a.y b.y), color, 256⟩

def paintBar (frame : Frame) (bar : Bar) : Painted :=
  patch (frame.place (bar.left, 0)) (frame.place (bar.right, bar.height))
    (.ofIndex bar.experiment)

/-- The line of the legend for an experiment. -/
def legendEntry (frame : Frame) (experiment : Nat) (series : Series) : LegendEntry :=
  let length : Int := px 10
  let half : Int := px 3.5
  ⟨series.name, fun point =>
    [patch (frame.clip ⟨point.x, point.y - half⟩) (frame.clip ⟨point.x + length, point.y + half⟩)
      (.ofIndex experiment)]⟩

/-- The picture. -/
def draw (data : BarData) (layout : BarLayout) : Drawing :=
  let frame := data.frame layout
  let shown := (data.experiments.zip layout.offsets).map Prod.fst
  { width := barFigure.pixels.1
    height := barFigure.pixels.2
    shapes :=
      mesh.paint frame ++ (data.labels layout).flatMap (paintLabel frame) ++
      (data.bars layout).flatten.map (paintBar frame) ++
      paintLegend frame (px 4) (px 10) (shown.mapIdx (legendEntry frame)) }

end ExperimentCharts.BarData
