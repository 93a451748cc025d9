import ExperimentCharts.CommandLine.Program
import Std.Time.Zoned

namespace ExperimentCharts

/-- The program that goes by the name of the executable or else by the first argument, and the
    arguments for it. -/
def chooseProgram (executable : String) (arguments : List String) :
    Option (Program × List String) :=
  let named (name : String) := Program.all.find? fun program => program.name = name
  match named executable, arguments with
  | some program, _ => some (program, arguments)
  | none, name :: rest => (named name).map fun program => (program, rest)
  | none, [] => none

/-- Adds what really stands at a location to a disk. -/
def observeLocation (disk : Disk) (location : Location) : IO Disk := do
  if (disk.node? location).isSome then return disk
  let place := (← IO.currentDir) / ("/" ++ "/".intercalate location)
  if ← place.isDir then return disk.put location .directory
  if ← place.pathExists then
    return disk.put location (.file (.bytes (← IO.FS.readBinFile place).toList))
  return disk

/-- Adds what really stands along a path to a disk, name by name. -/
def observeNames (disk : Disk) (location : Location) : List String → IO Disk
  | [] => return disk
  | name :: names => do
    match disk.walk location [name] with
    | .error _ => return disk
    | .ok next => observeNames (← observeLocation disk next) next names

/-- Adds what really stands along a path to a disk. -/
def observePath (disk : Disk) (path : String) : IO Disk :=
  observeNames disk (disk.start path) (Path.names path)

/-- The paths that a run looks at: its input and its output root. -/
def pathsOf (program : Program) (outputRoot : Option String) (arguments : List String) :
    List String :=
  match program.command.read arguments with
  | .accepted input values =>
    [input, (values.lookup Program.outputOption.name).getD (dataRootOf outputRoot)]
  | _ => []

/-- The disk as far as some paths lead. -/
def observe (paths : List String) : IO Disk := do
  let home := (Path.names (← IO.currentDir).toString).filter fun name => name ≠ ""
  let disk ← observeNames { nodes := [], home } [] home
  paths.foldlM observePath disk

/-- Stores what a run added to a disk. -/
def store (before after : Disk) : IO Unit := do
  for (location, node) in after.nodes do
    if before.node? location ≠ some node then
      if let .file content := node then
        let bytes := match content with
          | .bytes data => data.toByteArray
          | .picture drawing => drawing.toPng
        IO.FS.writeBinFile ("/" ++ "/".intercalate location) bytes

/-- The present instant, and the offset of local clocks where it is known. -/
def readClock : IO Clock := do
  let now ← Std.Time.Timestamp.now
  let offset ←
    try
      let rules ← Std.Time.Database.defaultGetLocalZoneRules
      pure (rules.timezoneAt now).offset.second.val
    catch _ => pure 0
  return ⟨now.toSecondsSinceUnixEpoch.val, offset⟩

end ExperimentCharts

open ExperimentCharts in
/-- The command line. It looks at the files that a run asks for, runs the program on them, and stores
    what the program made. -/
def main (arguments : List String) : IO UInt32 := do
  let executable := (← IO.appPath).fileName.getD ""
  match chooseProgram executable arguments with
  | none =>
    IO.eprintln ("programs: " ++ " ".intercalate (Program.all.map Program.name))
    return 1
  | some (program, arguments) =>
    let outputRoot ← IO.getEnv outputRootVariable
    let disk ← observe (pathsOf program outputRoot arguments)
    let completion := program.execute Logarithms.platform
      { disk, outputRoot, logFilter := ← IO.getEnv "RUST_LOG", clock := ← readClock } arguments
    store disk completion.disk
    IO.print completion.output
    IO.eprint completion.errors
    return completion.code.toUInt32
