import ExperimentCharts.Csv.Reader
import ExperimentCharts.Results.Reader

namespace ExperimentCharts

/-- The environment variable that names the directory for charts and extracted data. -/
def outputRootVariable : String := "TURNSTILE_OUTPUT_ROOT"

/-- An operation of the file system that was refused. -/
inductive FileError where
  | notFound
  | notDirectory
  | isDirectory
  | noSpace
  | nameTooLong
  | permissionDenied
  | notPermitted
  | readOnlySystem
  /-- A path with a character that ends it for the system cannot even be asked for. -/
  | nulInPath
deriving DecidableEq

namespace FileError

def description : FileError → String
  | .notFound => "No such file or directory"
  | .notDirectory => "Not a directory"
  | .isDirectory => "Is a directory"
  | .noSpace => "No space left on device"
  | .nameTooLong => "File name too long"
  | .permissionDenied => "Permission denied"
  | .notPermitted => "Operation not permitted"
  | .readOnlySystem => "Read-only file system"
  | .nulInPath => "file name contained an unexpected NUL byte"

/-- The number under which the system knows an error. -/
def code? : FileError → Option Nat
  | .notFound => some 2
  | .notDirectory => some 20
  | .isDirectory => some 21
  | .noSpace => some 28
  | .nameTooLong => some 36
  | .permissionDenied => some 13
  | .notPermitted => some 1
  | .readOnlySystem => some 30
  | .nulInPath => none

def message (error : FileError) : String :=
  match error.code? with
  | some code => s!"{error.description} (os error {code})"
  | none => error.description

end FileError

/-- Why a file does not hold a table. -/
inductive TableFault where
  | file (error : FileError)
  | csv (error : Csv.Error)

def TableFault.message : TableFault → String
  | .file error => error.message
  | .csv error => error.message

/-- Why a file does not hold experiment results. -/
inductive ResultsFault where
  | file (error : FileError)
  | json (error : Results.Error)

def ResultsFault.message : ResultsFault → String
  | .file error => error.message
  | .json error => error.message

/-- Why a chart or its data cannot be made. -/
inductive ChartError where
  | fileNotFound (path : String)
  | unreadableTable (path : String) (fault : TableFault)
  | missingColumn (column : String)
  /-- Rows count from one. -/
  | notANumber (column : String) (row : Nat) (value : String)
  | missingColumns (expected found : Nat)
  | outputRootUnset
  | cannotWrite (path reason : String)
  | cannotDraw (reason : String)
  | unreadableResults (path : String) (fault : ResultsFault)

def ChartError.message : ChartError → String
  | .fileNotFound path => s!"input file {path} not found"
  | .unreadableTable path fault => s!"could not parse {path}: {fault.message}"
  | .missingColumn column => s!"column '{column}' is missing from the header"
  | .notANumber column row value => s!"column '{column}', row {row}: '{value}' is not a number"
  | .missingColumns expected found =>
    s!"expected at least {expected} experiment columns, found {found}"
  | .outputRootUnset => s!"environment variable {outputRootVariable} is not set"
  | .cannotWrite path reason => s!"could not write {path}: {reason}"
  | .cannotDraw reason => s!"rendering failed: {reason}"
  | .unreadableResults path fault =>
    s!"could not read experiment results {path}: {fault.message}"

end ExperimentCharts
