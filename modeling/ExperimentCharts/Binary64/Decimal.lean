import ExperimentCharts.Binary64.Basic

namespace ExperimentCharts

/-- The decimal `coefficient * 10 ^ exponent`. -/
structure Decimal where
  coefficient : Nat
  exponent : Int
deriving DecidableEq

namespace Binary64

/-- The number of the given sign nearest to a decimal. Exponents far outside the format are decided
    without computing the power. -/
def ofDecimal (negative : Bool) (decimal : Decimal) : Binary64 :=
  let coefficient := decimal.coefficient
  if coefficient = 0 then zero negative
  else if decimal.exponent > 400 then infinity negative
  else if decimal.exponent < -(400 + (coefficient.log2 : Int)) then zero negative
  else if decimal.exponent < 0 then
    nearest negative (coefficient * unitsPerOne) (Nat.pow 10 decimal.exponent.natAbs)
  else
    nearest negative (coefficient * Nat.pow 10 decimal.exponent.natAbs * unitsPerOne) 1

instance : OfScientific Binary64 where
  ofScientific coefficient negativeExponent exponent :=
    ofDecimal false ⟨coefficient, if negativeExponent then -(exponent : Int) else exponent⟩

/-- Where a number stands halfway between two decimals of the same length, the one to take. -/
inductive Tie where
  | upward
  | even
deriving DecidableEq

/-- A multiple of 10⁻¹⁰⁷⁴ is read as the number of the given rank. -/
def readsAs (rank scaled : Nat) : Bool := nearestRank scaled (Nat.pow 5 1074) == rank

/-- The multiples of 10 ^ places on both sides of the expansion, if one of them is read back: the
    nearer of the two if both are. -/
def cutAt (tie : Tie) (readsBack : Nat → Bool) (expansion places : Nat) : Option Nat :=
  let step := Nat.pow 10 places
  let below := expansion / step
  let rest := expansion % step
  match readsBack (below * step), readsBack ((below + 1) * step) with
  | true, true =>
    if 2 * rest < step then some below
    else if step < 2 * rest then some (below + 1)
    else match tie with
      | .upward => some (below + 1)
      | .even => some (below + below % 2)
  | true, false => some below
  | false, true => some (below + 1)
  | false, false => none

/-- The expansion cut at the first place, from `places` downwards, at which it is read back. -/
def cutFrom (tie : Tie) (readsBack : Nat → Bool) (expansion : Nat) : (places : Nat) → Decimal
  | 0 => ⟨expansion, -1074⟩
  | places + 1 =>
    match cutAt tie readsBack expansion (places + 1) with
    | some coefficient => ⟨coefficient, ((places + 1 : Nat) : Int) - 1074⟩
    | none => cutFrom tie readsBack expansion places

/-- As many digits as a natural number has in base ten. The first guess, from the number of bits, is
    at most one too small. -/
def decimalLength (n : Nat) : Nat :=
  let guess := n.log2 * 30102 / 100000
  if Nat.pow 10 (guess + 1) ≤ n then guess + 2 else guess + 1

/-- The decimal of fewest digits that is read back as the number of the given finite rank, and among
    those the nearest to it. Every finite number is a whole multiple of 10⁻¹⁰⁷⁴, so that its expansion
    ends and can be cut from the front on. -/
def shortest (tie : Tie) (rank : Nat) : Decimal :=
  let expansion := units rank * Nat.pow 5 1074
  cutFrom tie (readsAs rank) expansion (decimalLength expansion)

end Binary64

end ExperimentCharts
