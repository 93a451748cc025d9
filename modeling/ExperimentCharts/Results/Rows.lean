import ExperimentCharts.Results.Summary

namespace ExperimentCharts

/-- The relative run-times of applications at one frequency, in each mode; a name stands once in each
    list. -/
structure FrequencyGroup where
  frequency : Binary64
  selective : List (String × List Binary64)
  exhaustive : List (String × List Binary64)

/-- Adds a value to those of an application, at the end. -/
def addRatio (name : String) (ratio : Binary64) :
    List (String × List Binary64) → List (String × List Binary64)
  | [] => [(name, [ratio])]
  | (other, ratios) :: apps =>
    if other = name then (other, ratios ++ [ratio]) :: apps
    else (other, ratios) :: addRatio name ratio apps

namespace FrequencyGroup

def empty (frequency : Binary64) : FrequencyGroup := ⟨frequency, [], []⟩

/-- The group with the ratio of one more run. -/
def add (group : FrequencyGroup) (name : String) (workload : Workload) : FrequencyGroup :=
  if workload.exhaustive then
    { group with exhaustive := addRatio name workload.ratio group.exhaustive }
  else { group with selective := addRatio name workload.ratio group.selective }

/-- The groups with one more run: in the first group of its frequency, or in a new one. -/
def addTo (name : String) (workload : Workload) : List FrequencyGroup → List FrequencyGroup
  | [] => [(empty workload.frequency).add name workload]
  | group :: groups =>
    if group.frequency.equal workload.frequency then group.add name workload :: groups
    else group :: addTo name workload groups

end FrequencyGroup

/-- A row of the area chart's data; a mode without runs has no summary. -/
structure AreaRow where
  frequency : Binary64
  selective : Option Summary
  exhaustive : Option Summary
deriving DecidableEq

/-- The runs of all entries, in file order. -/
def allRuns (results : List AppResult) : List (String × Workload) :=
  results.flatMap fun app => app.workloads.map fun workload => (app.name, workload)

/-- The runs in groups of equal frequency, in the order in which the frequencies first occur. -/
def frequencyGroups (results : List AppResult) : List FrequencyGroup :=
  (allRuns results).foldl (fun groups run => FrequencyGroup.addTo run.1 run.2 groups) []

/-- One row per input frequency, ascending. -/
def areaRows (results : List AppResult) : List AreaRow :=
  let groups := (frequencyGroups results).mergeSort fun a b => a.frequency.totalLe b.frequency
  groups.map fun group => ⟨group.frequency, summarize group.selective, summarize group.exhaustive⟩

/-- The interval (ms) of the 30 Hz workloads. -/
def interval30Hz : Binary64 := 33

/-- The interval (ms) of the 250 Hz workloads. -/
def interval250Hz : Binary64 := 4

/-- A row of the bar chart's data: the relative run-time in each configuration that was run. -/
structure BarRow where
  application : String
  selective30 : Option Binary64
  selective250 : Option Binary64
  exhaustive30 : Option Binary64
  exhaustive250 : Option Binary64
deriving DecidableEq

namespace BarRow

/-- The row with the ratio of one more run, which replaces that of an earlier run of the same
    configuration. Other intervals have no place in it. -/
def add (row : BarRow) (workload : Workload) : BarRow :=
  if workload.interval.equal interval30Hz then
    if workload.exhaustive then { row with exhaustive30 := some workload.ratio }
    else { row with selective30 := some workload.ratio }
  else if workload.interval.equal interval250Hz then
    if workload.exhaustive then { row with exhaustive250 := some workload.ratio }
    else { row with selective250 := some workload.ratio }
  else row

end BarRow

/-- One row per entry. -/
def barRows (results : List AppResult) : List BarRow :=
  results.map fun app => app.workloads.foldl BarRow.add ⟨app.name, none, none, none, none⟩

end ExperimentCharts
