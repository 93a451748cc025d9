import ExperimentCharts.Binary64.Decimal

namespace ExperimentCharts

/-- One run of an application at a given interval between its inputs. -/
structure Workload where
  /-- Milliseconds between inputs. -/
  interval : Binary64
  /-- Whether everything is tracked, or only what was selected. -/
  exhaustive : Bool
  /-- The elapsed time with tracking. -/
  tracked : Binary64
  /-- The elapsed time of the application on its own. -/
  untracked : Binary64
deriving DecidableEq

namespace Workload

/-- Inputs per second. -/
def frequency (workload : Workload) : Binary64 := 1000 / workload.interval

/-- The relative run-time. -/
def ratio (workload : Workload) : Binary64 := workload.tracked / workload.untracked

end Workload

/-- The runs of an application, in file order. The same application may have several entries. -/
structure AppResult where
  name : String
  workloads : List Workload
deriving DecidableEq

end ExperimentCharts
