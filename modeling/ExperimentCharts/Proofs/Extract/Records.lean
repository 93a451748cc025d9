import ExperimentCharts.Proofs.Extract.Columns
import ExperimentCharts.Proofs.Run.MakesFile
import ExperimentCharts.Run.Extract

namespace ExperimentCharts.Run

/-- A table can be loaded from a file that holds one. -/
theorem loadTable_of_find {path : String} {world : World} {location : Location} {content : Content} {table : Table}
    (hfind : world.disk.find path = .ok (location, .file content))
    (htable : Table.ofCsv content.toBytes = .ok table) : ((loadTable path).run.run world).1 = .ok table := by
  have hget : (get : Run World).run.run world = (.ok world, world) := rfl
  have hcontains : world.disk.contains path = true := by
    rw [Disk.contains, hfind]
    rfl
  have hread : world.disk.read path = .ok content := by
    rw [Disk.read, hfind]
    rfl
  rw [loadTable, run_bind, hget]
  dsimp only
  rw [if_neg (by simp [hcontains]), hread]
  simp only [Except.mapError, ofExcept, pure_bind, htable]
  rfl

/-- Records of texts, each with as many fields as the header, are read back one for one and in order, whatever
    the fields hold; they only lose the white space at their ends. So a file of records is loaded as the table of
    these records, unless a device has taken what was written. -/
theorem loadTable_writeData {header : List String} {records : List (List String)}
    (hheader : header ∈ [areaHeader, barHeader]) (hwidth : ∀ record ∈ records, record.length = header.length) :
    Table.ofCsv (Csv.write (header :: records)) = .ok ⟨header, records.map (List.map Text.trim)⟩ ∧
      ∀ path world after, (writeData (Csv.write (header :: records)) path).run.run world = (.ok (), after) →
        (∀ location isFull, world.disk.find path ≠ .ok (location, .device isFull)) →
        ((loadTable path).run.run after).1 = .ok ⟨header, records.map (List.map Text.trim)⟩ := by
  have htable := Table.ofCsv_write hheader hwidth
  refine ⟨htable, fun path world after hok hdevice => ?_⟩
  rcases Disk.find_store (onDisk_ok hok) with ⟨location, hfind⟩ | ⟨location, isFull, hfind, -⟩
  · exact loadTable_of_find hfind htable
  · exact absurd hfind (hdevice location isFull)

/-- A record that needs quotes: it has a comma, quotes, line breaks, white space and empty fields. -/
def sampleRecord : List String := ["a,\"b\"", "\r\n1\r", " 2\u00A0", "", "\"", "\u3000"]

/-- A world without files. -/
def bareWorld : World where
  disk := { nodes := [], home := [] }
  outputRoot := none
  notices := []
  printed := ""

/-- Commas, quotes and line ends are kept inside a field, and blanks around it are not. -/
theorem loadTable_sampleRecord :
    ∃ after, (writeData (Csv.write [barHeader, sampleRecord, sampleRecord]) "b.csv").run.run bareWorld = (.ok (), after) ∧
      ((loadTable "b.csv").run.run after).1 =
        .ok ⟨barHeader, [["a,\"b\"", "1", "2", "", "\"", ""], ["a,\"b\"", "1", "2", "", "\"", ""]]⟩ := by
  have hresult : ((writeData (Csv.write [barHeader, sampleRecord, sampleRecord]) "b.csv").run.run
      bareWorld).1.toOption = some () := by
    decide +kernel
  obtain ⟨after, hok⟩ := exists_ok_of_toOption hresult
  refine ⟨after, hok, (loadTable_writeData (by simp) (by decide)).2 _ _ after hok fun location isFull hfind => ?_⟩
  have hnone : (bareWorld.disk.find "b.csv").toOption = none := by decide +kernel
  rw [hfind] at hnone
  cases hnone

end ExperimentCharts.Run
