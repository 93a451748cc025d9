import ExperimentCharts.Json.Value
import ExperimentCharts.Results.Basic

namespace ExperimentCharts.Results

/-- A workload; runs that do not say otherwise are selective. -/
def workloadForm : Json.Reader.Form Workload where
  name := "Workload"
  blank := ⟨0, false, 0, 0⟩
  fields := [
    ⟨"interval", false, fun w => return { w with interval := ← Json.Reader.float }⟩,
    ⟨"exhaustive", true, fun w => return { w with exhaustive := ← Json.Reader.boolean }⟩,
    ⟨"tm_elapsed", false, fun w => return { w with tracked := ← Json.Reader.float }⟩,
    ⟨"og_elapsed", false, fun w => return { w with untracked := ← Json.Reader.float }⟩]

def appForm : Json.Reader.Form AppResult where
  name := "AppResult"
  blank := ⟨"", []⟩
  fields := [
    ⟨"app_name", false, fun a => return { a with name := ← Json.Reader.text }⟩,
    ⟨"workloads", false, fun a => return { a with
      workloads := ← Json.Reader.list (Json.Reader.record workloadForm) }⟩]

/-- Why results cannot be read, and where. -/
structure Error where
  fault : Json.Fault
  place : Json.Place

def Error.message (error : Error) : String :=
  s!"{error.fault.message} at line {error.place.line} column {error.place.column}"

/-- The results in a file. -/
def read (bytes : List UInt8) : Except Error (List AppResult) :=
  let reader := Json.Reader.file (Json.Reader.list (Json.Reader.record appForm))
  match reader (Json.Cursor.start bytes) with
  | .ok results _ => .ok results
  | .error failure cursor => .error ⟨failure.fault, failure.place.getD cursor.seen⟩

end ExperimentCharts.Results
