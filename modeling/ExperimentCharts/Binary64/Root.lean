import ExperimentCharts.Binary64.Basic

namespace ExperimentCharts.Binary64

/-- Newton's steps downwards from an estimate that is not too small, to the whole part of the root of
    `n`. -/
def rootFrom (n : Nat) : (steps estimate : Nat) → Nat
  | 0, estimate => estimate
  | steps + 1, estimate =>
    let next := (estimate + n / estimate) / 2
    if next < estimate then rootFrom n steps next else estimate

/-- The whole part of a square root. Each step halves the estimate or doubles its correct digits, so
    the number of bits is more than enough steps. -/
def wholeRoot (n : Nat) : Nat := rootFrom n (n.log2 + 2) (Nat.pow 2 (n.log2 / 2 + 1))

/-- The square root of a number; a negative number has none. In units it is far above one, so that an
    inexact whole part can be rounded as if it were half a unit more. -/
def sqrt : Binary64 → Binary64
  | .nan negative => .nan negative
  | .number negative rank =>
    if rank.val = 0 then .number negative rank
    else if negative then invalid
    else if rank.val = infiniteRank then .number negative rank
    else
      let square := units rank.val * unitsPerOne
      let root := wholeRoot square
      nearest false (2 * root + if root * root = square then 0 else 1) 2

end ExperimentCharts.Binary64
