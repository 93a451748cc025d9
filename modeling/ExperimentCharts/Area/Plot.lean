import ExperimentCharts.Area.Data
import ExperimentCharts.Drawing.Frame
import ExperimentCharts.Drawing.Stroke

namespace ExperimentCharts

/-- How a band looks. -/
structure BandLook where
  label : String
  medianLabel : String
  line : Color
  fill : Color
  /-- How much of the ground the fill covers, from 0 to 1. -/
  share : Binary64

def selectiveLook : BandLook :=
  ⟨"Selectively-managed", "Selectively-managed (Median)", .pureBlue, .lightBlue, 0.7⟩

def exhaustiveLook : BandLook :=
  ⟨"Exhaustively-managed", "Exhaustively-managed (Median)", .pureRed, .lightSalmon, 0.35⟩

namespace AreaData

/-- The sizes of the chart's parts, in pixels. -/
def px (points : Binary64) : Nat := areaFigure.px points

def lineWidth : Nat := px 1.5

def dashPattern : DashPattern := ⟨px 4, px 2⟩

/-- A range whose lower end is zero has no logarithm; it starts five decades below its upper end. -/
def scaleOf (range : Binary64 × Binary64) : Scale :=
  if range.1.equal 0 then .logarithmic (range.2 * 1e-5) range.2
  else .logarithmic range.1 range.2

def frame (log : Logarithms) (xRange yRange : Binary64 × Binary64) : Frame :=
  .within areaFigure.pixels (px 6) (px 6) (px 40) (px 40) (scaleOf xRange) (scaleOf yRange)
    log.natural

/-- The labelled ticks of an axis. -/
def ticksOf (log : Logarithms) (range : Binary64 × Binary64) : List Tick :=
  (logTicks log.common range.1 range.2).all.map fun value => ⟨value, tickLabel value⟩

def mesh (log : Logarithms) (xRange yRange : Binary64 × Binary64) : Mesh where
  xTicks := ticksOf log xRange
  yTicks := ticksOf log yRange
  xTitle := "Input Rate (Hz)"
  yTitle := "Relative Run-time"
  titleSize := px 10
  xSize := px 8
  ySize := px 8
  xTurn := .quarter
  gridColor := .lightGray
  gridOpacity := Painted.opacityOf 0.7
  tickLength := px 3

/-- The pixels of a series over the frequencies. -/
def trace (data : AreaData) (frame : Frame) (series : Series) : List Point :=
  (data.frequency.values.zip series.values).map frame.place

/-- A band: its area, its edges, and its median with a dot at each frequency. -/
def paintBand (data : AreaData) (frame : Frame) (band : Band) (look : BandLook) : List Painted :=
  let lower := data.trace frame band.min
  let middle := data.trace frame band.med
  let upper := data.trace frame band.max
  let edge : LineLook := { color := look.line, width := lineWidth }
  let median : LineLook := { edge with pattern := some dashPattern }
  [filled (lower ++ upper.reverse) look.fill (Painted.opacityOf look.share)] ++
  edge.paint lower ++ edge.paint upper ++
  (middle.map fun point => ⟨.disc point (px 1.5), look.line, 256⟩) ++
  median.paint middle

/-- The lines of the legend for a band: a patch of its fill and a piece of its median. -/
def legendEntries (frame : Frame) (look : BandLook) : List LegendEntry :=
  let length : Int := px 14
  let half : Int := px 3
  let median : LineLook := ⟨look.line, lineWidth, some dashPattern⟩
  [⟨look.label, fun point =>
      let corner := frame.clip ⟨point.x, point.y - half⟩
      let opposite := frame.clip ⟨point.x + length, point.y + half⟩
      [⟨.rectangle corner.x corner.y opposite.x opposite.y, look.fill,
        Painted.opacityOf look.share⟩]⟩,
   ⟨look.medianLabel, fun point => median.paint [point, ⟨point.x + length, point.y⟩]⟩]

/-- A guide line with its label. -/
def paintGuide (frame : Frame) (yRange : Binary64 × Binary64) (guide : Guide) : List Painted :=
  let look : LineLook := ⟨.darkGray, px 1, some dashPattern⟩
  look.paint [frame.place (guide.frequency, yRange.1), frame.place (guide.frequency, yRange.2)] ++
  [⟨.caption {
      text := guide.label
      anchor := frame.place (guide.frequency, guide.height.clamp yRange.1 yRange.2)
      size := px 10
      turn := .threeQuarters }, .darkGray, 256⟩]

/-- The picture over the given ranges. The selective band lies on top of the exhaustive one. -/
def draw (log : Logarithms) (data : AreaData) (xRange yRange : Binary64 × Binary64) : Drawing :=
  let frame := frame log xRange yRange
  { width := areaFigure.pixels.1
    height := areaFigure.pixels.2
    shapes :=
      (mesh log xRange yRange).paint frame ++
      data.paintBand frame data.exhaustive exhaustiveLook ++
      data.paintBand frame data.selective selectiveLook ++
      (guides.filter fun guide => guide.isOn xRange).flatMap (paintGuide frame yRange) ++
      paintLegend frame (px 4) (px 7)
        (legendEntries frame exhaustiveLook ++ legendEntries frame selectiveLook) }

end AreaData

end ExperimentCharts
