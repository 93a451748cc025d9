import ExperimentCharts.Calendar
import ExperimentCharts.Files.Disk
import ExperimentCharts.Log
import ExperimentCharts.Table
import ExperimentCharts.Text.Quoted

namespace ExperimentCharts

/-- What a run sees and changes. -/
structure World where
  disk : Disk
  /-- The value of the environment variable for the output root. -/
  outputRoot : Option String
  notices : List Notice
  /-- What was printed. -/
  printed : String

/-- The time of a run, in seconds after 1970, and how many seconds local clocks are ahead of UTC. -/
structure Clock where
  instant : Int
  offset : Int

/-- A run that ends with a result or an error. -/
abbrev Run := ExceptT ChartError (StateM World)

namespace Run

/-- Adds to the log. -/
def say (notices : List Notice) : Run Unit :=
  modify fun world => { world with notices := world.notices ++ notices }

/-- Prints a line. -/
def printLine (line : String) : Run Unit :=
  modify fun world => { world with printed := world.printed ++ line ++ "\n" }

/-- A result that needs no world. -/
def ofExcept {α : Type} (result : Except ChartError α) : Run α :=
  match result with
  | .ok value => pure value
  | .error error => throw error

/-- An operation on the disk; its refusal becomes an error of the run. -/
def onDisk (operation : Disk → Except FileError Unit × Disk) (refused : FileError → ChartError) :
    Run Unit := do
  let (result, disk) := operation (← get).disk
  modify fun world => { world with disk }
  match result with
  | .ok _ => pure ()
  | .error error => throw (refused error)

/-- The table in a file. -/
def loadTable (path : String) : Run Table := do
  let disk := (← get).disk
  if !disk.contains path then throw (.fileNotFound path)
  let content ← ofExcept ((disk.read path).mapError fun error =>
    .unreadableTable path (.file error))
  let table ← ofExcept ((Table.ofCsv content.toBytes).mapError fun error =>
    .unreadableTable path (.csv error))
  say [⟨.debug, Notice.mainTarget,
    s!"loaded {table.rows.length} records with columns " ++
    s!"StringRecord({Text.quoteList table.headers}) from {path}"⟩]
  return table

/-- The experiment results in a file. -/
def loadResults (path : String) : Run (List AppResult) := do
  let disk := (← get).disk
  if !disk.contains path then throw (.fileNotFound path)
  let content ← ofExcept ((disk.read path).mapError fun error =>
    .unreadableResults path (.file error))
  let results ← ofExcept ((Results.read content.toBytes).mapError fun error =>
    .unreadableResults path (.json error))
  say [⟨.debug, Notice.mainTarget ++ "::extract", s!"{results.length} applications in {path}"⟩]
  return results

end Run

end ExperimentCharts
