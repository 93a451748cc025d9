import ExperimentCharts.Results.Extract
import ExperimentCharts.Run.Output

namespace ExperimentCharts.Run

/-- Writes extracted data to a path. -/
def writeData (data : List UInt8) (path : String) : Run Unit :=
  onDisk (fun disk => disk.write path data) fun error => .cannotWrite path error.message

/-- Where the data of a kind of chart goes: below the given directory, or else below the output root,
    or else in the working directory. -/
def dataOutput (directory : Option String) (kind : String) (clock : Clock) : Run String := do
  let world ← get
  let root := directory.getD (dataRootOf world.outputRoot)
  ofExcept (dataPath world.disk root kind clock)

/-- Extracts the rows of a kind of chart and saves them. The result is the path of the data. -/
def extract {Row : Type} (kind unit : String) (rowsOf : List AppResult → List Row)
    (encode : List Row → List UInt8) (input : String) (directory : Option String) (clock : Clock) :
    Run String := do
  let path ← dataOutput directory kind clock
  let rows := rowsOf (← loadResults input)
  say [⟨.info, Notice.mainTarget ++ "::extract", s!"{rows.length} {unit}"⟩]
  writeData (encode rows) path
  printLine s!"Saved {kind} plot data at {path}"
  printLine s!"Now you can plot the results by: turnstile_{kind} {path}"
  return path

/-- Extracts the data of the area chart. -/
def extractArea : (input : String) → (directory : Option String) → (clock : Clock) → Run String :=
  extract "area" "frequencies" areaRows areaCsv

/-- Extracts the data of the bar chart. -/
def extractBar : (input : String) → (directory : Option String) → (clock : Clock) → Run String :=
  extract "bar" "applications" barRows barCsv

end ExperimentCharts.Run
