import ExperimentCharts.Axis.Ticks
import ExperimentCharts.Figure
import ExperimentCharts.Table

namespace ExperimentCharts

/-- The least, middle and greatest run-time at each frequency. -/
structure Band where
  min : Series
  med : Series
  max : Series

namespace Band

/-- The three columns of a mode. -/
def ofTable (table : Table) (mode : String) : Except ChartError Band :=
  return ⟨← table.column (mode ++ "-Min"), ← table.column (mode ++ "-Med"),
    ← table.column (mode ++ "-Max")⟩

/-- All the run-times. -/
def values (band : Band) : List Binary64 :=
  band.min.values ++ band.med.values ++ band.max.values

end Band

/-- The data of the area chart: the relative run-times at each input frequency, in both modes. -/
structure AreaData where
  frequency : Series
  selective : Band
  exhaustive : Band

/-- Why values have no place on a logarithmic axis. -/
inductive AxisFault where
  | notFinite
  | notPositive
  | noValues
  /-- The addition overflows that leads to the decade above. No finite value comes near it. -/
  | noDecade
deriving DecidableEq

/-- The wording of a fault, given what the values are. -/
def AxisFault.message (what : String) : AxisFault → String
  | .notFinite => s!"{what} values must be finite on a log axis"
  | .notPositive => s!"{what} values must be positive on a log axis"
  | .noValues => s!"no {what} values to plot"
  | .noDecade => "attempt to add with overflow"

/-- The whole decades around some values. -/
def logRange (log10 : Binary64 → Binary64) (values : List Binary64) :
    Except AxisFault (Binary64 × Binary64) :=
  if values.any fun value => !value.isFinite then .error .notFinite
  else match minAndMax values with
    | none => .error .noValues
    | some (least, greatest) =>
      if 0 < least then
        match decadeBounds log10 least greatest with
        | some bounds => .ok bounds
        | none => .error .noDecade
      else .error .notPositive

namespace AreaData

def ofTable (table : Table) : Except ChartError AreaData :=
  return ⟨← table.column "Frequency", ← Band.ofTable table "Selective",
    ← Band.ofTable table "Exhaustive"⟩

/-- What stands in the way of an axis, as an error of the chart. -/
def axisError (what : String) (fault : AxisFault) : ChartError := .cannotDraw (fault.message what)

/-- The bounds of the x axis: whole decades around the frequencies. -/
def xRange (log10 : Binary64 → Binary64) (data : AreaData) :
    Except ChartError (Binary64 × Binary64) :=
  (logRange log10 data.frequency.values).mapError (axisError "Frequency")

/-- The bounds of the y axis: whole decades around all the run-times. -/
def yRange (log10 : Binary64 → Binary64) (data : AreaData) :
    Except ChartError (Binary64 × Binary64) :=
  (logRange log10 (data.selective.values ++ data.exhaustive.values)).mapError
    (axisError "run-time")

end AreaData

/-- The size of the area chart. -/
def areaFigure : Figure := { width := 6, height := 3.5 }

/-- The kind of the area chart, in file names. -/
def areaKind : String := "area"

/-- A vertical line that marks a frequency: its place, its label, and the height of the label. -/
structure Guide where
  frequency : Binary64
  label : String
  height : Binary64

def guides : List Guide := [⟨30, "30 Hz", 3.5⟩, ⟨250, "250 Hz", 14⟩]

namespace Guide

/-- Whether the line lies on the x axis. -/
def isOn (guide : Guide) (xRange : Binary64 × Binary64) : Bool :=
  !(guide.frequency < xRange.1 || xRange.2 < guide.frequency)

/-- The notice about a line that is left out. -/
def skipped (guide : Guide) : Notice :=
  ⟨.info, Notice.mainTarget ++ "::area",
    s!"guide line at {guide.frequency.toText} is outside of the x axis, skipped"⟩

end Guide

/-- The notices about the lines that are left out. -/
def guideNotices (xRange : Binary64 × Binary64) : List Notice :=
  (guides.filter fun guide => !guide.isOn xRange).map Guide.skipped

end ExperimentCharts
