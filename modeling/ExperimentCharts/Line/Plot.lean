import ExperimentCharts.Drawing.Stroke
import ExperimentCharts.Line.Data

namespace ExperimentCharts.LineChart

/-- The sizes of the chart's parts, in pixels. -/
def px (points : Binary64) : Nat := lineFigure.px points

def frame : Frame :=
  .within lineFigure.pixels (px 8) (px 40) (px 45) (px 60) (.linear 0 lineWidthLimit)
    (.linear 0 lineHeightLimit) id

/-- Ticks every 10 percent and every two dataflows. -/
def mesh : Mesh where
  xTicks := (List.range 11).map fun (index : Nat) =>
    let value : Binary64 := index * 10
    ⟨value, percentLabel value⟩
  yTicks := (List.range 11).map fun (index : Nat) =>
    let value : Binary64 := index * 2
    ⟨value, tickLabel value⟩
  xTitle := "Percentage of Applications"
  yTitle := "Number of Privacy-sensitive Dataflows Found"
  titleSize := px 13
  xSize := px 12
  ySize := px 12
  gridColor := .silver
  tickLength := px 3

/-- A series with its sample and its name in the legend, which has five places for three series in the
    middle. -/
def paintSeries (index : Nat) (entry : Series × LineStyle) : List Painted :=
  let (series, style) := entry
  let look : LineLook :=
    ⟨style.color, px 2.5, if style.dashed then some ⟨px 7, px 3⟩ else none⟩
  let slot : Int := lineFigure.pixels.1 / 5
  let x := (lineFigure.pixels.1 / 2 : Nat) - slot * 3 / 2 + index * slot
  let y : Int := px 18
  let length : Int := px 40
  look.paint (series.curve.map frame.place) ++ look.paint [⟨x, y⟩, ⟨x + length, y⟩] ++
  [blackText { text := series.name, anchor := ⟨x + length + px 6, y - px 7⟩, size := px 14 }]

/-- The picture: the distribution of each series, under a legend in one row. -/
def draw (series : List Series) : Drawing where
  width := lineFigure.pixels.1
  height := lineFigure.pixels.2
  shapes := mesh.paint frame ++ ((series.zip lineStyles).mapIdx paintSeries).flatten

end ExperimentCharts.LineChart
