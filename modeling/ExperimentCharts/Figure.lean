import ExperimentCharts.Binary64.Decimal
import ExperimentCharts.Binary64.Whole

namespace ExperimentCharts

/-- Dots per inch, unless said otherwise. -/
def defaultDpi : Nat := 300

/-- The size of a chart in inches, and the resolution of its bitmap. -/
structure Figure where
  width : Binary64
  height : Binary64
  dpi : Nat := defaultDpi

namespace Figure

/-- Typographic points (1/72 in) in pixels. -/
def px (figure : Figure) (points : Binary64) : Nat :=
  ((points * figure.dpi / 72).round .unsigned32).toNat

/-- The size of the bitmap. -/
def pixels (figure : Figure) : Nat × Nat :=
  (figure.px (figure.width * 72), figure.px (figure.height * 72))

end Figure

end ExperimentCharts
