import ExperimentCharts.Binary64.Text
import ExperimentCharts.Csv.Writer
import ExperimentCharts.Results.Rows

namespace ExperimentCharts

def areaHeader : List String :=
  ["Frequency", "Selective-Min", "Selective-Med", "Selective-Max",
   "Exhaustive-Min", "Exhaustive-Med", "Exhaustive-Max"]

def barHeader : List String :=
  ["Application", "Baseline", "Selectively-managed (30Hz)", "Selectively-managed (250Hz)",
   "Exhaustively-managed (30Hz)", "Exhaustively-managed (250Hz)"]

/-- The text of a number that may be missing. -/
def numberField (value : Option Binary64) : String :=
  match value with
  | some value => value.toText
  | none => ""

/-- The texts of a summary that may be missing. -/
def summaryFields (summary : Option Summary) : List String :=
  [numberField (summary.map Summary.min), numberField (summary.map Summary.med),
   numberField (summary.map Summary.max)]

def AreaRow.fields (row : AreaRow) : List String :=
  row.frequency.toText :: (summaryFields row.selective ++ summaryFields row.exhaustive)

/-- The baseline of every application is one. -/
def BarRow.fields (row : BarRow) : List String :=
  [row.application, "1", numberField row.selective30, numberField row.selective250,
   numberField row.exhaustive30, numberField row.exhaustive250]

def areaCsv (rows : List AreaRow) : List UInt8 := Csv.write (areaHeader :: rows.map AreaRow.fields)

def barCsv (rows : List BarRow) : List UInt8 := Csv.write (barHeader :: rows.map BarRow.fields)

end ExperimentCharts
