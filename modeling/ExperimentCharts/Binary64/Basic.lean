namespace ExperimentCharts

/-- How many ranks a binade has, the numbers from one power of two up to the next. -/
def Binary64.ranksPerBinade : Nat := 0x10000000000000

/-- The rank of infinity, one more than that of the largest finite number. -/
def Binary64.infiniteRank : Nat := 0x7FF0000000000000

/-- A number of the 64-bit binary floating-point format: not a number, or a sign with the rank of a
    magnitude. Ranks count the magnitudes upwards from zero to infinity. Every finite magnitude is a
    whole number of units, the unit being the smallest positive number, 2⁻¹⁰⁷⁴, so that sums, products
    and quotients are exact fractions of units, rounded once by `nearestRank`. Both zeros are kept
    apart, and so are the two signs of not-a-number, which only sorting tells apart. -/
inductive Binary64 where
  | nan (negative : Bool)
  | number (negative : Bool) (rank : Fin (Binary64.infiniteRank + 1))
deriving DecidableEq

namespace Binary64

/-- How many units make one. -/
def unitsPerOne : Nat := Nat.pow 2 1074

/-- The value of a rank, in units: up to the second binade a rank is its own value, and from there on
    the upper bits of the rank count doublings of the unit. -/
def units (rank : Nat) : Nat :=
  if rank < ranksPerBinade then rank
  else (ranksPerBinade + rank % ranksPerBinade) * Nat.pow 2 (rank / ranksPerBinade - 1)

/-- The whole number nearest to a quotient; a half goes to the even neighbour. -/
def roundHalfEven (num den : Nat) : Nat :=
  let quotient := num / den
  let remainder := num % den
  if 2 * remainder < den then quotient
  else if den < 2 * remainder then quotient + 1
  else quotient + quotient % 2

/-- The rank of the number nearest to `num / den` units. A tie goes to the even rank, and what lies
    half a step beyond the largest finite number is infinite. A significand that rounds up to the next
    power of two carries into the upper bits, which is the rank of that power. -/
def nearestRank (num den : Nat) : Nat :=
  let shift := (num / den).log2 - 52
  min (shift * ranksPerBinade + roundHalfEven num (den * Nat.pow 2 shift)) infiniteRank

/-- A nearest rank is the rank of a number of the format, infinity included. -/
theorem nearestRank_lt (num den : Nat) : nearestRank num den < infiniteRank + 1 :=
  Nat.lt_succ_of_le (Nat.min_le_right _ _)

/-- The number of the given sign nearest to `num / den` units. -/
def nearest (negative : Bool) (num den : Nat) : Binary64 :=
  .number negative ⟨nearestRank num den, nearestRank_lt num den⟩

def zero (negative : Bool) : Binary64 := .number negative ⟨0, by decide⟩

def infinity (negative : Bool) : Binary64 := .number negative ⟨infiniteRank, by decide⟩

/-- What an operation without a value gives: not a number, with the sign set. -/
def invalid : Binary64 := .nan true

def isNaN : Binary64 → Bool
  | .nan _ => true
  | .number _ _ => false

def isInfinite : Binary64 → Bool
  | .nan _ => false
  | .number _ rank => rank.val == infiniteRank

def isFinite : Binary64 → Bool
  | .nan _ => false
  | .number _ rank => rank.val != infiniteRank

/-- The exact value of a finite number, in units. -/
def signedUnits (negative : Bool) (rank : Nat) : Int :=
  if negative then -(units rank : Int) else (units rank : Int)

/-- The number nearest to a signed amount of units; an amount of zero takes the given sign. -/
def ofUnits (zeroNegative : Bool) (amount : Int) : Binary64 :=
  if amount = 0 then zero zeroNegative
  else nearest (decide (amount < 0)) amount.natAbs 1

/-- The nearest number to a natural number. -/
def ofNat (n : Nat) : Binary64 := nearest false (n * unitsPerOne) 1

/-- The nearest number to an integer. -/
def ofInt (n : Int) : Binary64 := nearest (decide (n < 0)) (n.natAbs * unitsPerOne) 1

instance : NatCast Binary64 := ⟨ofNat⟩

instance (n : Nat) : OfNat Binary64 n := ⟨ofNat n⟩

def neg : Binary64 → Binary64
  | .nan negative => .nan (!negative)
  | .number negative rank => .number (!negative) rank

def abs : Binary64 → Binary64
  | .nan _ => .nan false
  | .number _ rank => .number false rank

/-- The exact sum, rounded. The first operand that is not a number is the result; a sum of zero is
    negative only if both terms are. -/
def add : Binary64 → Binary64 → Binary64
  | .nan negative, _ => .nan negative
  | .number _ _, .nan negative => .nan negative
  | .number s a, .number t b =>
    if a.val = infiniteRank then
      if b.val = infiniteRank ∧ s ≠ t then invalid else .number s a
    else if b.val = infiniteRank then .number t b
    else ofUnits (s && t) (signedUnits s a.val + signedUnits t b.val)

/-- The exact difference, rounded. -/
def sub : Binary64 → Binary64 → Binary64
  | .number s a, .number t b => add (.number s a) (.number (!t) b)
  | .nan negative, _ => .nan negative
  | .number _ _, .nan negative => .nan negative

/-- The exact product, rounded. -/
def mul : Binary64 → Binary64 → Binary64
  | .nan negative, _ => .nan negative
  | .number _ _, .nan negative => .nan negative
  | .number s a, .number t b =>
    if a.val = infiniteRank ∨ b.val = infiniteRank then
      if a.val = 0 ∨ b.val = 0 then invalid else infinity (s != t)
    else nearest (s != t) (units a.val * units b.val) unitsPerOne

/-- The exact quotient, rounded. -/
def div : Binary64 → Binary64 → Binary64
  | .nan negative, _ => .nan negative
  | .number _ _, .nan negative => .nan negative
  | .number s a, .number t b =>
    if a.val = infiniteRank then
      if b.val = infiniteRank then invalid else infinity (s != t)
    else if b.val = infiniteRank then zero (s != t)
    else if b.val = 0 then
      if a.val = 0 then invalid else infinity (s != t)
    else nearest (s != t) (units a.val * unitsPerOne) (units b.val)

instance : Neg Binary64 := ⟨neg⟩
instance : Add Binary64 := ⟨add⟩
instance : Sub Binary64 := ⟨sub⟩
instance : Mul Binary64 := ⟨mul⟩
instance : Div Binary64 := ⟨div⟩

/-- The sum of a list from left to right, starting from the negative zero. -/
def sum (values : List Binary64) : Binary64 := values.foldl add (zero true)

/-- The place of a number on the line, where both zeros are one point. -/
def position : Binary64 → Option Int
  | .nan _ => none
  | .number negative rank => some (if negative then -(rank.val : Int) else (rank.val : Int))

/-- Numeric order: false as soon as one side is not a number. -/
def lt (x y : Binary64) : Bool :=
  match x.position, y.position with
  | some p, some q => decide (p < q)
  | _, _ => false

def le (x y : Binary64) : Bool :=
  match x.position, y.position with
  | some p, some q => decide (p ≤ q)
  | _, _ => false

/-- Numeric equality: the two zeros are equal, and nothing equals what is not a number. -/
def equal (x y : Binary64) : Bool :=
  match x.position, y.position with
  | some p, some q => decide (p = q)
  | _, _ => false

instance : LT Binary64 := ⟨fun x y => x.lt y = true⟩
instance : LE Binary64 := ⟨fun x y => x.le y = true⟩
instance (x y : Binary64) : Decidable (x < y) := inferInstanceAs (Decidable (x.lt y = true))
instance (x y : Binary64) : Decidable (x ≤ y) := inferInstanceAs (Decidable (x.le y = true))

/-- The place of a number in the total order, in which the negative zero stands before the positive
    one and not-a-number beyond the infinity of its sign. -/
def sortKey : Binary64 → Int
  | .nan false => (infiniteRank : Int) + 1
  | .nan true => -(infiniteRank : Int) - 2
  | .number false rank => rank.val
  | .number true rank => -(rank.val : Int) - 1

/-- The total order by `sortKey`. -/
def totalLe (x y : Binary64) : Bool := decide (x.sortKey ≤ y.sortKey)

/-- The values in ascending total order. -/
def sorted (values : List Binary64) : List Binary64 := values.mergeSort totalLe

/-- The greater of two numbers; what is not a number gives way to the other. -/
def max (x y : Binary64) : Binary64 :=
  if x.isNaN then y else if x < y then y else x

/-- The lesser of two numbers; what is not a number gives way to the other. -/
def min (x y : Binary64) : Binary64 :=
  if x.isNaN then y else if y < x then y else x

/-- A number moved into the range from `lower` to `upper`. -/
def clamp (x lower upper : Binary64) : Binary64 := (x.max lower).min upper

end Binary64

end ExperimentCharts
