import ExperimentCharts.Binary64.Decimal
import ExperimentCharts.Binary64.Text
import ExperimentCharts.Binary64.Whole

namespace ExperimentCharts

/-- How far, relative to itself, a number may miss a power of ten or the end of a range. -/
def relativeTolerance : Binary64 := 1e-9

/-- The ticks of a logarithmic axis: the powers of ten, and the multiples between them. -/
structure LogTicks where
  major : List Binary64
  minor : List Binary64
deriving DecidableEq

namespace LogTicks

/-- All the ticks, ascending. -/
def all (ticks : LogTicks) : List Binary64 := Binary64.sorted (ticks.major ++ ticks.minor)

end LogTicks

/-- Whether a value lies in a range, or misses it by no more than the tolerance. -/
def inRange (lower upper value : Binary64) : Bool :=
  lower * (1 - relativeTolerance) ≤ value && value ≤ upper * (1 + relativeTolerance)

/-- The integers from `first` to `last`. -/
def integersBetween (first last : Int) : List Int :=
  (List.range (last + 1 - first).toNat).map fun (offset : Nat) => first + offset

/-- The multiples two to nine of a power of ten. -/
def multiples (power : Binary64) : List Binary64 :=
  [2, 3, 4, 5, 6, 7, 8, 9].map fun (factor : Nat) => factor * power

/-- The ticks of the range from `lower` to `upper`; there are none unless it is positive and finite. The
    logarithm to base ten is an argument, and says only which decades to look through. -/
def logTicks (log10 : Binary64 → Binary64) (lower upper : Binary64) : LogTicks :=
  if 0 < lower ∧ lower ≤ upper ∧ upper.isFinite = true then
    let powers := (integersBetween ((log10 lower).floor .signed32)
      ((log10 upper).ceil .signed32)).map Binary64.powerOfTen
    { major := powers.filter (inRange lower upper)
      minor := powers.flatMap fun power => (multiples power).filter (inRange lower upper) }
  else ⟨[], []⟩

/-- The exponents of the whole decades around a range: at least one decade, and none if the exponent
    after the first is not in the range of 32 bits. -/
def decadeExponents (log10 : Binary64 → Binary64) (lower upper : Binary64) : Option (Int × Int) :=
  let first := (log10 lower + relativeTolerance).floor .signed32
  let last := (log10 upper - relativeTolerance).ceil .signed32
  if first < last then some (first, last)
  else if first + 1 ≤ IntRange.signed32.greatest then some (first, first + 1)
  else none

/-- The smallest range of whole decades around a range. -/
def decadeBounds (log10 : Binary64 → Binary64) (lower upper : Binary64) :
    Option (Binary64 × Binary64) :=
  (decadeExponents log10 lower upper).map fun exponents =>
    (.powerOfTen exponents.1, .powerOfTen exponents.2)

/-- A number to six decimals. -/
def roundToMillionths (value : Binary64) : Binary64 := (value * 1000000).roundWhole / 1000000

/-- The label of a tick: a whole number from one up, and a short decimal below. -/
def tickLabel (value : Binary64) : String :=
  if 1 ≤ value.abs then toString (value.round .signed64) else (roundToMillionths value).toText

/-- The label of a percentage. -/
def percentLabel (value : Binary64) : String := s!"{value.round .signed64}%"

end ExperimentCharts
