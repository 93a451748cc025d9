import ExperimentCharts.Bar.Data
import ExperimentCharts.Proofs.Extract.Columns

namespace ExperimentCharts

/-- The experiments of the bar chart's data, each with the cell that a row has in it. -/
def barColumns : List (String × (BarRow → Option Binary64)) :=
  [("Baseline", fun _ => some 1),
   ("Selectively-managed (30Hz)", BarRow.selective30),
   ("Selectively-managed (250Hz)", BarRow.selective250),
   ("Exhaustively-managed (30Hz)", BarRow.exhaustive30),
   ("Exhaustively-managed (250Hz)", BarRow.exhaustive250)]

/-- The fields of a row are its application and its columns, as texts. -/
theorem BarRow.fields_eq (row : BarRow) :
    row.fields = row.application :: barColumns.map fun column => numberField (column.2 row) := by
  have hbaseline : numberField (some 1) = "1" := by decide +kernel
  simp only [BarRow.fields, barColumns, List.map_cons, List.map_nil, hbaseline]

end ExperimentCharts
