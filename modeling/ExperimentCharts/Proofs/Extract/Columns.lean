import ExperimentCharts.Proofs.Binary64.Text
import ExperimentCharts.Proofs.Csv.RoundTrip
import ExperimentCharts.Results.Extract
import ExperimentCharts.Table
import Mathlib.Data.List.Nodup

namespace ExperimentCharts

namespace Table

variable {table : Table} {name : String} {cells : List (Option Binary64)}

variable {Row : Type} {columns : List (String × (Row → Option Binary64))} {rows : List Row}

end Table

/-- Written under the header of the area or the bar chart, records are loaded with every field trimmed. -/
theorem Table.ofCsv_write {header : List String} {records : List (List String)}
    (hheader : header ∈ [areaHeader, barHeader]) (hwidth : ∀ record ∈ records, record.length = header.length) :
    Table.ofCsv (Csv.write (header :: records)) = .ok ⟨header, records.map (List.map Text.trim)⟩ := by
  obtain ⟨hlength, hmark, htrimmed⟩ : 2 ≤ header.length ∧
      (Csv.writeRecord (header.map Text.encode)).head? ≠ some 0xEF ∧ ∀ name ∈ header, Text.IsTrimmed name := by
    rcases List.mem_pair.mp hheader with rfl | rfl <;> decide +kernel
  have htrim : header.map Text.trim = header := by
    rw [List.map_congr_left fun name hname => (htrimmed name hname).trim_eq, List.map_id']
  rw [Table.ofCsv, Csv.read_write hlength hwidth hmark, htrim]
  rfl

end ExperimentCharts
