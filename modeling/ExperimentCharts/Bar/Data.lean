import ExperimentCharts.Figure
import ExperimentCharts.Table
import ExperimentCharts.Text.Quoted

namespace ExperimentCharts

/-- The column with the names of the applications. -/
def applicationColumn : String := "Application"

/-- The number of experiments in the chart, unless said otherwise. -/
def defaultColumns : Nat := 5

def barWidth : Binary64 := 0.15

/-- The extra space before each group of bars. -/
def groupGap : Binary64 := 0.05

/-- The upper end of the y axis. -/
def barHeightLimit : Binary64 := 3

/-- The size of the bar chart. -/
def barFigure : Figure := { width := 16, height := 4 }

/-- The kind of the bar chart, in file names. -/
def barKind : String := "bar"

/-- The middle of a bar relative to its application. The first bar stands alone and the others in
    pairs, with a gap before each pair. -/
def barOffset {α : Type} [Add α] [Mul α] [NatCast α] (width gap : α) (index : Nat) : α :=
  (index : α) * width + gap * (((index + 1) / 2 : Nat) : α)

/-- The places of the bars of an application, relative to its index. -/
structure BarLayout where
  width : Binary64
  offsets : List Binary64

namespace BarLayout

/-- The places of the bars of `columns` experiments. -/
def ofColumns (columns : Nat) (width gap : Binary64) : BarLayout :=
  ⟨width, (List.range columns).map (barOffset width gap)⟩

/-- The middle between the first and the last bar. -/
def center (layout : BarLayout) : Binary64 :=
  match layout.offsets.head?, layout.offsets.getLast? with
  | some first, some last => (first + last) / 2
  | _, _ => 0

/-- The left edge of the first bar and the right edge of the last. -/
def span (layout : BarLayout) : Binary64 × Binary64 :=
  match layout.offsets.head?, layout.offsets.getLast? with
  | some first, some last => (first - layout.width / 2, last + layout.width / 2)
  | _, _ => (0, 0)

end BarLayout

/-- The names of the applications, and for each experiment one value per application. -/
structure BarData where
  applications : List String
  experiments : List Series

/-- The names of the columns that hold experiments, from left to right. -/
def Table.experimentColumns (table : Table) : List String :=
  table.headers.filter fun name => name != applicationColumn

namespace BarData

/-- The applications and the first `columns` experiments of a table; the table has at least so many. -/
def ofTable (table : Table) (columns : Nat) : Except ChartError BarData := do
  let applications ← table.textColumn applicationColumn
  let names := table.experimentColumns
  if names.length < columns then .error (.missingColumns columns names.length)
  else return ⟨applications, ← (names.take columns).mapM table.column⟩

/-- What `ofTable` says: the experiments that are left out, if any. -/
def notices (table : Table) (columns : Nat) : List Notice :=
  let ignored := table.experimentColumns.drop columns
  if table.headers.contains applicationColumn && !ignored.isEmpty then
    [⟨.warn, Notice.mainTarget ++ "::bar",
      s!"plotting the first {columns} experiment columns, ignoring {Text.quoteList ignored}"⟩]
  else []

/-- Each application with the place of its label, the middle of its bars. -/
def labels (data : BarData) (layout : BarLayout) : List (Binary64 × String) :=
  data.applications.mapIdx fun index name => ((index : Binary64) + layout.center, name)

/-- A bar: its experiment, its edges and its height. -/
structure Bar where
  experiment : Nat
  left : Binary64
  right : Binary64
  height : Binary64

/-- The bars of one experiment; their heights are cut at the ends of the y axis. -/
def barsOf (layout : BarLayout) (experiment : Nat) (series : Series) (offset : Binary64) :
    List Bar :=
  series.values.mapIdx fun index value =>
    let left := (index : Binary64) + offset - layout.width / 2
    ⟨experiment, left, left + layout.width, value.clamp 0 barHeightLimit⟩

/-- The bars of each experiment, in the order of the columns. -/
def bars (data : BarData) (layout : BarLayout) : List (List Bar) :=
  (data.experiments.zip layout.offsets).mapIdx fun experiment pair =>
    barsOf layout experiment pair.1 pair.2

/-- The ends of the x axis: a little space on both sides of all the bars. -/
def xRange (data : BarData) (layout : BarLayout) : Binary64 × Binary64 :=
  (layout.span.1 - 0.3,
    ((data.applications.length - 1 : Nat) : Binary64) + layout.span.2 + 0.3)

/-- What is said before the chart is drawn. -/
def layoutNotice (data : BarData) (layout : BarLayout) : Notice :=
  let offsets := Text.bracketed (layout.offsets.map (Binary64.render .listed))
  ⟨.info, Notice.mainTarget ++ "::bar",
    s!"{data.applications.length} applications, {data.experiments.length} bars each " ++
    s!"at offsets {offsets}"⟩

/-- The error of a chart without applications. -/
def noApplications : ChartError := .cannotDraw "no applications to plot"

end BarData

end ExperimentCharts
