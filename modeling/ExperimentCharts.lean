import ExperimentCharts.Area.Data
import ExperimentCharts.Area.Plot
import ExperimentCharts.Axis.Ticks
import ExperimentCharts.Bar.Data
import ExperimentCharts.Bar.Plot
import ExperimentCharts.Binary64.Basic
import ExperimentCharts.Binary64.Decimal
import ExperimentCharts.Binary64.Logarithm
import ExperimentCharts.Binary64.Root
import ExperimentCharts.Binary64.Text
import ExperimentCharts.Binary64.Whole
import ExperimentCharts.Calendar
import ExperimentCharts.CommandLine.Arguments
import ExperimentCharts.CommandLine.Command
import ExperimentCharts.CommandLine.Filter
import ExperimentCharts.CommandLine.Likeness
import ExperimentCharts.CommandLine.Program
import ExperimentCharts.Csv.Reader
import ExperimentCharts.Csv.Writer
import ExperimentCharts.Drawing.Frame
import ExperimentCharts.Drawing.Outline
import ExperimentCharts.Drawing.Png
import ExperimentCharts.Drawing.Shape
import ExperimentCharts.Drawing.Stroke
import ExperimentCharts.Error
import ExperimentCharts.Figure
import ExperimentCharts.Files.Disk
import ExperimentCharts.Files.Path
import ExperimentCharts.Files.Picture
import ExperimentCharts.Json.Cursor
import ExperimentCharts.Json.Number
import ExperimentCharts.Json.Text
import ExperimentCharts.Json.Value
import ExperimentCharts.Line.Data
import ExperimentCharts.Line.Plot
import ExperimentCharts.Log
import ExperimentCharts.Main
import ExperimentCharts.Proofs.Area.Ranges
import ExperimentCharts.Proofs.Area.Tightness
import ExperimentCharts.Proofs.Axis.AccurateLog
import ExperimentCharts.Proofs.Axis.DecadeTicks
import ExperimentCharts.Proofs.Axis.Decades
import ExperimentCharts.Proofs.Axis.Labels
import ExperimentCharts.Proofs.Axis.Multiples
import ExperimentCharts.Proofs.Axis.TickSoundness
import ExperimentCharts.Proofs.Bar.Columns
import ExperimentCharts.Proofs.Bar.Inside
import ExperimentCharts.Proofs.Bar.Overlap
import ExperimentCharts.Proofs.Binary64.Accuracy
import ExperimentCharts.Proofs.Binary64.Arithmetic
import ExperimentCharts.Proofs.Binary64.Decimal
import ExperimentCharts.Proofs.Binary64.Error
import ExperimentCharts.Proofs.Binary64.Exact
import ExperimentCharts.Proofs.Binary64.Midpoint
import ExperimentCharts.Proofs.Binary64.Millionths
import ExperimentCharts.Proofs.Binary64.Numeral
import ExperimentCharts.Proofs.Binary64.Powers
import ExperimentCharts.Proofs.Binary64.Real
import ExperimentCharts.Proofs.Binary64.Rounding
import ExperimentCharts.Proofs.Binary64.Text
import ExperimentCharts.Proofs.Calendar.Instants
import ExperimentCharts.Proofs.Calendar.Order
import ExperimentCharts.Proofs.Calendar.Stamps
import ExperimentCharts.Proofs.Csv.RoundTrip
import ExperimentCharts.Proofs.Extract.Area
import ExperimentCharts.Proofs.Extract.Bar
import ExperimentCharts.Proofs.Extract.Columns
import ExperimentCharts.Proofs.Extract.Records
import ExperimentCharts.Proofs.Files.Names
import ExperimentCharts.Proofs.Files.Touched
import ExperimentCharts.Proofs.Json.Values
import ExperimentCharts.Proofs.Line.Curves
import ExperimentCharts.Proofs.Results.Agreement
import ExperimentCharts.Proofs.Results.AreaRows
import ExperimentCharts.Proofs.Results.Arrangement
import ExperimentCharts.Proofs.Results.BarRows
import ExperimentCharts.Proofs.Results.Groups
import ExperimentCharts.Proofs.Results.OrderStatistics
import ExperimentCharts.Proofs.Run.Extraction
import ExperimentCharts.Proofs.Run.FailedPlot
import ExperimentCharts.Proofs.Run.NameOrder
import ExperimentCharts.Proofs.Run.Outcome
import ExperimentCharts.Proofs.Run.OutputNames
import ExperimentCharts.Proofs.Run.Sequence
import ExperimentCharts.Proofs.Table.Distribution
import ExperimentCharts.Proofs.Table.Empirical
import ExperimentCharts.Proofs.Table.Extremes
import ExperimentCharts.Proofs.Table.FirstExtremes
import ExperimentCharts.Proofs.Table.LossyColumns
import ExperimentCharts.Proofs.Table.Rectangular
import ExperimentCharts.Proofs.Text.Trim
import ExperimentCharts.Results.Basic
import ExperimentCharts.Results.Extract
import ExperimentCharts.Results.Reader
import ExperimentCharts.Results.Rows
import ExperimentCharts.Results.Summary
import ExperimentCharts.Run.Extract
import ExperimentCharts.Run.Output
import ExperimentCharts.Run.Plot
import ExperimentCharts.Run.World
import ExperimentCharts.Table
import ExperimentCharts.Text.Blank
import ExperimentCharts.Text.Parts
import ExperimentCharts.Text.Plain
import ExperimentCharts.Text.Printable
import ExperimentCharts.Text.Quoted
import ExperimentCharts.Text.Utf8
