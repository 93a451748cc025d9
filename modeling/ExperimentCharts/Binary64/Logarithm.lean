import ExperimentCharts.Binary64.Basic

namespace ExperimentCharts

/-- The logarithms that axes are laid out with. No exact definition is attempted: what is built on them
    takes them as an argument, and says how accurate they have to be. -/
structure Logarithms where
  /-- The logarithm to base ten. -/
  common : Binary64 → Binary64
  /-- The logarithm to base e. -/
  natural : Binary64 → Binary64

namespace Binary64

/-- The highest bit of the machine's form, which holds the sign. -/
def signBit : Nat := 0x8000000000000000

/-- The machine's form of a number. -/
def toFloat : Binary64 → Float
  | .nan _ => 0.0 / 0.0
  | .number negative rank =>
    Float.ofBits (UInt64.ofNat (rank.val + if negative then signBit else 0))

/-- The number in the machine's form. -/
def ofFloat (x : Float) : Binary64 :=
  let bits := x.toBits.toNat
  let rank := bits % signBit
  if h : rank < infiniteRank + 1 then .number (decide (signBit ≤ bits)) ⟨rank, h⟩
  else .nan (decide (signBit ≤ bits))

end Binary64

/-- The platform's own logarithms. -/
def Logarithms.platform : Logarithms where
  common x := .ofFloat x.toFloat.log10
  natural x := .ofFloat x.toFloat.log

end ExperimentCharts
