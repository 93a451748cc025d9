import ExperimentCharts.Area.Data
import ExperimentCharts.Proofs.Extract.Columns
import ExperimentCharts.Results.Reader

namespace ExperimentCharts

/-- The columns of the area chart's data, each with the cell that a row has in it. -/
def areaColumns : List (String × (AreaRow → Option Binary64)) :=
  [("Frequency", fun row => some row.frequency),
   ("Selective-Min", fun row => row.selective.map Summary.min),
   ("Selective-Med", fun row => row.selective.map Summary.med),
   ("Selective-Max", fun row => row.selective.map Summary.max),
   ("Exhaustive-Min", fun row => row.exhaustive.map Summary.min),
   ("Exhaustive-Med", fun row => row.exhaustive.map Summary.med),
   ("Exhaustive-Max", fun row => row.exhaustive.map Summary.max)]

/-- The fields of a row are its columns, as texts. -/
theorem AreaRow.fields_eq (row : AreaRow) :
    row.fields = areaColumns.map fun column => numberField (column.2 row) := rfl

end ExperimentCharts
