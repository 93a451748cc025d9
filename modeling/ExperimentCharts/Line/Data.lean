import ExperimentCharts.Drawing.Frame
import ExperimentCharts.Table

namespace ExperimentCharts

/-- A line of the chart: its column and its look. -/
structure LineStyle where
  column : String
  color : Color
  dashed : Bool

def lineStyles : List LineStyle :=
  [⟨"Turnstile", .pureBlue, true⟩, ⟨"CodeQL", .pureRed, true⟩, ⟨"Manual", .darkGreen, false⟩]

/-- The ends of the axes: percentages, and dataflows. -/
def lineWidthLimit : Binary64 := 100
def lineHeightLimit : Binary64 := 20

/-- The size of the line chart. -/
def lineFigure : Figure := { width := 8, height := 4 }

/-- The kind of the line chart, in file names. -/
def lineKind : String := "line"

/-- The numbers of each column of the chart, whose distributions are drawn. -/
def loadSeries (table : Table) : Except ChartError (List Series) :=
  lineStyles.mapM fun style => table.lossyColumn style.column

/-- What `loadSeries` says: what each column leaves out, up to a column that is missing. -/
def seriesNotices (table : Table) : List Notice :=
  (lineStyles.takeWhile fun style => table.headers.contains style.column).flatMap fun style =>
    table.lossyNotices style.column

namespace Series

/-- The points of a series' line: its distribution, cut at the ends of the y axis. -/
def curve (series : Series) : List (Binary64 × Binary64) :=
  series.distribution.map fun point => (point.1, point.2.clamp 0 lineHeightLimit)

/-- What is said when the line is drawn. -/
def curveNotice (series : Series) : Notice :=
  let target := Notice.mainTarget ++ "::line"
  let count := series.distribution.length
  if count = 0 then ⟨.warn, target, s!"no values in column '{series.name}', nothing to draw"⟩
  else ⟨.info, target, s!"'{series.name}': {count} values"⟩

end Series

end ExperimentCharts
