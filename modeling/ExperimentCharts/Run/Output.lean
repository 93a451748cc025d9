import ExperimentCharts.Run.World

namespace ExperimentCharts

/-- The output root from the environment; unset or empty is an error. -/
def outputRootOf (value : Option String) : Except ChartError String :=
  match value with
  | some root => if root = "" then .error .outputRootUnset else .ok root
  | none => .error .outputRootUnset

/-- The output root for extracted data, which is the working directory if none is set. -/
def dataRootOf (value : Option String) : String :=
  match outputRootOf value with
  | .ok root => root
  | .error _ => "."

/-- The name of a chart made at the given time. -/
def plotName (kind : String) (time : DateTime) : String :=
  kind ++ "-plot." ++ stamp plotStamp time ++ ".png"

/-- The name of extracted data made at the given time. -/
def dataName (kind : String) (time : DateTime) : String :=
  "plot-" ++ kind ++ "-data." ++ stamp dataStamp time ++ ".csv"

/-- The path of a name below an output root, which has to be a directory. -/
def outputPath (disk : Disk) (root name : String) : Except ChartError String :=
  if disk.isDirectory root then .ok (Path.join root name)
  else .error (.cannotWrite root "output root is not an existing directory")

/-- The path of a chart. -/
def plotPath (disk : Disk) (root kind : String) (clock : Clock) : Except ChartError String :=
  outputPath disk root (plotName kind (Calendar.dateTime clock.instant clock.offset))

/-- The path of extracted data, with the time in UTC. -/
def dataPath (disk : Disk) (root kind : String) (clock : Clock) : Except ChartError String :=
  outputPath disk root (dataName kind (Calendar.dateTime clock.instant 0))

end ExperimentCharts
