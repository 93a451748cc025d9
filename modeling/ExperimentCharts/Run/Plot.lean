import ExperimentCharts.Area.Plot
import ExperimentCharts.Bar.Plot
import ExperimentCharts.Files.Picture
import ExperimentCharts.Line.Plot
import ExperimentCharts.Run.Output

namespace ExperimentCharts.Run

/-- Saves a picture at a path, in the format that the path asks for. What format that is comes first,
    then the file is made, and only then it shows whether pictures can be written in that format. -/
def savePicture (drawing : Drawing) (path : String) : Run Unit := do
  let refused (fault : SaveFault) : ChartError := .cannotWrite path fault.message
  let onFile (operation : Disk → Except FileError Unit × Disk) : Run Unit :=
    onDisk operation fun error => refused (.file error)
  let format ← ofExcept ((PictureFormat.ofPath path).mapError refused)
  if format.isWritable then onFile fun disk => disk.save path drawing
  else
    onFile fun disk => disk.write path []
    throw (refused (.unwritable format))

/-- Draws the area chart to a path. -/
def plotArea (log : Logarithms) (data : AreaData) (path : String) : Run Unit := do
  let xRange ← ofExcept (data.xRange log.common)
  let yRange ← ofExcept (data.yRange log.common)
  say (guideNotices xRange)
  savePicture (data.draw log xRange yRange) path

/-- Draws the bar chart to a path. -/
def plotBar (data : BarData) (layout : BarLayout) (path : String) : Run Unit := do
  if data.applications.isEmpty then throw BarData.noApplications
  say [data.layoutNotice layout]
  savePicture (data.draw layout) path

/-- Draws the line chart to a path. -/
def plotLine (series : List Series) (path : String) : Run Unit := do
  say ((series.zip lineStyles).map fun entry => entry.1.curveNotice)
  savePicture (LineChart.draw series) path

/-- Takes back a chart whose drawing failed, as far as anything is at its path. -/
def discard (path : String) : Run Unit := do
  if (← get).disk.contains path then
    say [⟨.warn, Notice.mainTarget, s!"removing the incomplete {path}"⟩]
    onDisk (fun disk => disk.remove path) fun error => .cannotWrite path error.message

/-- Loads a table, draws its chart and saves it below the given directory, or else below the output
    root. The result is the path of the chart. -/
def plotCsv (input : String) (directory : Option String) (kind : String) (clock : Clock)
    (draw : Table → String → Run Unit) : Run String := do
  let root ← match directory with
    | some directory => pure directory
    | none => ofExcept (outputRootOf (← get).outputRoot)
  let table ← loadTable input
  say [⟨.info, Notice.mainTarget, s!"read {table.rows.length} records from {input}"⟩]
  let path ← ofExcept (plotPath (← get).disk root kind clock)
  try draw table path
  catch error =>
    discard path
    throw error
  printLine s!"Plot saved to {path}"
  return path

/-- The area chart of a table. -/
def drawArea (log : Logarithms) (table : Table) (path : String) : Run Unit := do
  plotArea log (← ofExcept (AreaData.ofTable table)) path

/-- The bar chart of the first experiments of a table. -/
def drawBar (columns : Nat) (table : Table) (path : String) : Run Unit := do
  say (BarData.notices table columns)
  let data ← ofExcept (BarData.ofTable table columns)
  plotBar data (.ofColumns columns barWidth groupGap) path

/-- The line chart of a table. -/
def drawLine (table : Table) (path : String) : Run Unit := do
  say (seriesNotices table)
  plotLine (← ofExcept (loadSeries table)) path

def area (log : Logarithms) (input : String) (directory : Option String) (clock : Clock) :
    Run String :=
  plotCsv input directory areaKind clock (drawArea log)

def bar (columns : Nat) (input : String) (directory : Option String) (clock : Clock) : Run String :=
  plotCsv input directory barKind clock (drawBar columns)

def line (input : String) (directory : Option String) (clock : Clock) : Run String :=
  plotCsv input directory lineKind clock drawLine

end ExperimentCharts.Run
