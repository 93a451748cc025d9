import ExperimentCharts.Proofs.Binary64.Decimal
import ExperimentCharts.Proofs.Binary64.Numeral

namespace ExperimentCharts.Binary64

/-- A finite number is written as a sign and the text of its magnitude. -/
theorem toText_number (negative : Bool) (rank : Fin (infiniteRank + 1)) (hrank : rank.val ≠ infiniteRank) :
    (number negative rank).toText = String.ofList
      (if negative then '-' :: magnitudeText .plain rank.val else magnitudeText .plain rank.val) := by
  simp only [toText, render, if_neg hrank]

end ExperimentCharts.Binary64
