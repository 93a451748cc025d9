import ExperimentCharts.CommandLine.Arguments
import ExperimentCharts.CommandLine.Filter
import ExperimentCharts.Run.Extract
import ExperimentCharts.Run.Plot

namespace ExperimentCharts

open CommandLine

/-- The programs: one for each chart, and one for each extraction of a chart's data. -/
inductive Program where
  | area
  | bar
  | line
  | extractArea
  | extractBar

namespace Program

def all : List Program := [.area, .bar, .line, .extractArea, .extractBar]

/-- The directory for the output. -/
def outputOption : ValueOption where
  name := "outdir"
  letter := 'o'
  help := s!"directory for the output file, overrides {outputRootVariable}"

/-- The largest count that can be given. -/
def countLimit : Nat := 0xFFFFFFFFFFFFFFFF

/-- Why a text is no count. -/
inductive CountFault where
  | empty
  | notADigit
  | tooLarge

def CountFault.message : CountFault → String
  | .empty => "cannot parse integer from empty string"
  | .notADigit => "invalid digit found in string"
  | .tooLarge => "number too large to fit in target type"

/-- Reads the digits of a count after those that were read before. The first fault counts. -/
def readDigits (count : Nat) : List Char → Except CountFault Nat
  | [] => .ok count
  | c :: cs =>
    if c.isDigit then
      let next := 10 * count + (c.toNat - '0'.toNat)
      if next ≤ countLimit then readDigits next cs else .error .tooLarge
    else .error .notADigit

/-- Reads a count, which may have a plus sign. -/
def readCount (text : String) : Except CountFault Nat :=
  match text.toList with
  | [] => .error .empty
  | ['+'] => .error .notADigit
  | '+' :: digits => readDigits 0 digits
  | digits => readDigits 0 digits

/-- The number of experiments in the bar chart. -/
def columnsOption : ValueOption where
  name := "columns"
  letter := 'n'
  help := "number of experiment columns to plot, after the application column"
  default := some (toString defaultColumns)
  fault text := match readCount text with
    | .ok _ => none
    | .error fault => some s!"{text}: {fault.message}"

def name : Program → String
  | .area => "turnstile_area"
  | .bar => "turnstile_bar"
  | .line => "turnstile_line"
  | .extractArea => "turnstile_extract_area"
  | .extractBar => "turnstile_extract_bar"

def about : Program → String
  | .area => "cli app to plot the relative run-time against the input rate"
  | .bar => "cli app to plot the relative run-time of each application"
  | .line => "cli app to plot the distribution of the privacy-sensitive dataflows found"
  | .extractArea => "cli app to extract the area plot data from the compiled experiment results"
  | .extractBar => "cli app to extract the bar plot data from the compiled experiment results"

def inputHelp : Program → String
  | .area => "csv file with the area data, e.g., plot-area-data.csv"
  | .bar => "csv file with the bar data, e.g., plot-bar-data.csv"
  | .line => "csv file with the Turnstile, CodeQL and Manual dataflow counts"
  | .extractArea | .extractBar => "compiled experiment results, e.g., exp-results-compiled.json"

def command (program : Program) : Command where
  name := program.name
  about := program.about
  input := match program with
    | .area | .bar | .line => "input_csvfile"
    | .extractArea | .extractBar => "input_jsonfile"
  inputHelp := program.inputHelp
  options := match program with
    | .bar => [columnsOption, outputOption]
    | _ => [outputOption]

/-- The work of a program. The result is the path of what it made. -/
def run (program : Program) (log : Logarithms) (clock : Clock) (input : String)
    (values : List (String × String)) : Run String :=
  let directory := values.lookup outputOption.name
  match program with
  | .area => Run.area log input directory clock
  | .bar =>
    let columns := match (values.lookup columnsOption.name).map readCount with
      | some (.ok columns) => columns
      | _ => defaultColumns
    Run.bar columns input directory clock
  | .line => Run.line input directory clock
  | .extractArea => Run.extractArea input directory clock
  | .extractBar => Run.extractBar input directory clock

/-- What a program leaves behind: its exit code, what it wrote to its two outputs, and the disk. -/
structure Completion where
  code : Nat
  output : String
  errors : String
  disk : Disk

/-- Where a program runs. -/
structure Surroundings where
  disk : Disk
  /-- The value of the environment variable for the output root. -/
  outputRoot : Option String
  /-- The value of the environment variable for the log. -/
  logFilter : Option String
  clock : Clock

/-- Runs a program with its arguments. What is wrong with the filter for the log comes before
    everything else, and an error of the run is the last line of the log. -/
def execute (program : Program) (log : Logarithms) (surroundings : Surroundings)
    (arguments : List String) : Completion :=
  let command := program.command
  let disk := surroundings.disk
  let (filter, faults) := LogFilter.ofEnvironment surroundings.logFilter
  let warnings := String.join (faults.map LogFault.line)
  match command.read arguments with
  | .flag .help => ⟨0, command.helpText ++ "\n", warnings, disk⟩
  | .flag .version => ⟨0, command.versionText ++ "\n", warnings, disk⟩
  | .fault fault inPlay => ⟨1, "", warnings ++ fault.message command inPlay ++ "\n", disk⟩
  | .accepted input values =>
    let world : World := ⟨disk, surroundings.outputRoot, [], ""⟩
    let (result, world) := (program.run log surroundings.clock input values).run.run world
    let shown (notices : List Notice) : String :=
      warnings ++ String.join ((notices.filter filter.shows).map Notice.line)
    match result with
    | .ok _ => ⟨0, world.printed, shown world.notices, world.disk⟩
    | .error error =>
      let last : Notice := ⟨.error, program.name, error.message⟩
      ⟨1, world.printed, shown (world.notices ++ [last]), world.disk⟩

end Program

end ExperimentCharts
