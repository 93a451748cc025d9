namespace ExperimentCharts

/-- How urgent a notice is, from the most urgent down. -/
inductive Level where
  | error
  | warn
  | info
  | debug
deriving DecidableEq

namespace Level

def name : Level → String
  | .error => "ERROR"
  | .warn => "WARN"
  | .info => "INFO"
  | .debug => "DEBUG"

/-- The place of a level; a more urgent one is lower. -/
def rank : Level → Nat
  | .error => 1
  | .warn => 2
  | .info => 3
  | .debug => 4

end Level

/-- A line for the log, with the part of the program that it comes from. -/
structure Notice where
  level : Level
  target : String
  text : String
deriving DecidableEq

/-- The names under which the parts of the program write to the log. -/
def Notice.mainTarget : String := "turnstile_plot"

end ExperimentCharts
