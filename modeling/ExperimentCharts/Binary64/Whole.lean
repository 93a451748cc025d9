import ExperimentCharts.Binary64.Basic

namespace ExperimentCharts

/-- The range of a machine integer. -/
structure IntRange where
  least : Int
  greatest : Int

namespace IntRange

def signed32 : IntRange := ⟨-0x80000000, 0x7FFFFFFF⟩
def unsigned32 : IntRange := ⟨0, 0xFFFFFFFF⟩
def signed64 : IntRange := ⟨-0x8000000000000000, 0x7FFFFFFFFFFFFFFF⟩

/-- The member of the range nearest to an integer. -/
def cut (range : IntRange) (n : Int) : Int := max range.least (min n range.greatest)

end IntRange

namespace Binary64

/-- The integer nearest to an amount of units; a half goes away from zero. -/
def roundUnits (amount : Int) : Int :=
  let whole : Nat := (2 * amount.natAbs + unitsPerOne) / (2 * unitsPerOne)
  if amount < 0 then -(whole : Int) else (whole : Int)

/-- The greatest integer not above an amount of units. -/
def floorUnits (amount : Int) : Int := amount.fdiv unitsPerOne

/-- The least integer not below an amount of units. -/
def ceilUnits (amount : Int) : Int := -((-amount).fdiv unitsPerOne)

/-- The integer part of an amount of units. -/
def truncateUnits (amount : Int) : Int := amount.tdiv unitsPerOne

/-- A number taken to an integer by a rule on its units. What lies outside the range of the integer is
    cut at its ends, and what is not a number becomes zero. -/
def toInt (rule : Int → Int) (range : IntRange) : Binary64 → Int
  | .nan _ => 0
  | .number negative rank =>
    if rank.val = infiniteRank then (if negative then range.least else range.greatest)
    else range.cut (rule (signedUnits negative rank.val))

/-- The greatest integer not above a number. -/
def floor (x : Binary64) (range : IntRange) : Int := x.toInt floorUnits range

/-- The least integer not below a number. -/
def ceil (x : Binary64) (range : IntRange) : Int := x.toInt ceilUnits range

/-- The integer part of a number. -/
def truncate (x : Binary64) (range : IntRange) : Int := x.toInt truncateUnits range

/-- The integer nearest to a number; a half goes away from zero. -/
def round (x : Binary64) (range : IntRange) : Int := x.toInt roundUnits range

/-- The whole number nearest to a number, as a number; a half goes away from zero and the sign stays,
    also on a zero. -/
def roundWhole : Binary64 → Binary64
  | .nan negative => .nan negative
  | .number negative rank =>
    if rank.val = infiniteRank then .number negative rank
    else nearest negative ((roundUnits (units rank.val)).natAbs * unitsPerOne) 1

/-- Repeated squaring over the lowest `bits` bits of an exponent, each product rounded. -/
def powerBits : (bits exponent : Nat) → (base result : Binary64) → Binary64
  | 0, _, _, result => result
  | bits + 1, exponent, base, result =>
    powerBits bits (exponent / 2) (base * base) (if exponent % 2 = 1 then result * base else result)

/-- A power of ten by repeated squaring, which is not the nearest number for every exponent. A negative
    exponent gives the reciprocal, which is zero where the positive power is infinite. -/
def powerOfTen (exponent : Int) : Binary64 :=
  let power := powerBits (exponent.natAbs.log2 + 1) exponent.natAbs 10 1
  if exponent < 0 then 1 / power else power

end Binary64

end ExperimentCharts
