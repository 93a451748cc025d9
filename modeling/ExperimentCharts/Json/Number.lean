import ExperimentCharts.Json.Cursor

namespace ExperimentCharts.Json

def isDigit (byte : UInt8) : Bool := 48 ≤ byte && byte ≤ 57

def digitValue (byte : UInt8) : Nat := byte.toNat - 48

inductive Number where
  | integer (value : Int)
  | float (value : Binary64)

namespace Number

def toBinary64 : Number → Binary64
  | .integer value => .ofInt value
  | .float value => value

def unexpected : Number → Unexpected
  | .integer value => .integer value
  | .float value => .float value

end Number

/-- The largest significand. -/
def significandLimit : Nat := 0xFFFFFFFFFFFFFFFF

/-- The significand with the digits that still fit into 64 bits, and the number of the others. -/
def gather (significand : Nat) : List UInt8 → Nat × Nat
  | [] => (significand, 0)
  | digit :: digits =>
    let longer := significand * 10 + digitValue digit
    if longer ≤ significandLimit then gather longer digits else (significand, digits.length + 1)

/-- The magnitude of a significand times a power of ten, or nothing if it is too large. Powers beyond
    the largest one in the format are taken in steps; three steps reach zero from any significand. -/
def scale : (steps : Nat) → (magnitude : Binary64) → (exponent : Int) → Option Binary64
  | steps, magnitude, exponent =>
    if exponent.natAbs ≤ 308 then
      let power := Binary64.ofDecimal false ⟨1, exponent.natAbs⟩
      if 0 ≤ exponent then
        let product := magnitude * power
        if product.isInfinite then none else some product
      else some (magnitude / power)
    else if magnitude.equal 0 then some magnitude
    else if 0 ≤ exponent then none
    else match steps with
      | 0 => some magnitude
      | steps + 1 => scale steps (magnitude / 1e308) (exponent + 308)

namespace Reader

/-- The number of a significand and an exponent. -/
def scaled (negative : Bool) (significand : Nat) (exponent : Int) : Reader Number := do
  match scale 4 (.ofNat significand) exponent with
  | some magnitude => return .float (if negative then -magnitude else magnitude)
  | none => fail .numberOutOfRange

/-- The value of an exponent's digits, or the number of digits up to the one at which it exceeds
    31 bits. -/
def exponentValue (value count : Nat) : List UInt8 → Except Nat Nat
  | [] => .ok value
  | digit :: digits =>
    let longer := value * 10 + digitValue digit
    if longer ≤ 0x7FFFFFFF then exponentValue longer (count + 1) digits else .error (count + 1)

/-- The sign before the digits of an exponent: whether it is negative. -/
def exponentSign : Reader Bool := do
  match ← peek with
  | some 43 => skip; return false
  | some 45 => skip; return true
  | _ => return false

/-- The rest of a number from the letter of its exponent on. An exponent that is too large leaves zero,
    unless it makes the number too large. -/
def exponent (negative : Bool) (significand : Nat) (shift : Int) : Reader Number := do
  skip
  let negativeExponent ← exponentSign
  match ← next with
  | none => fail .endInValue
  | some first =>
    if !isDigit first then fail .invalidNumber
    else
      let cursor ← get
      let digits ← takeWhile isDigit
      match exponentValue (digitValue first) 0 digits with
      | .error count =>
        if significand ≠ 0 && !negativeExponent then
          throw ⟨.numberOutOfRange, some (cursor.steps count).seen⟩
        else return .float (.zero negative)
      | .ok value =>
        let total := if negativeExponent then shift - value else shift + value
        scaled negative significand (max (-0x80000000) (min 0x7FFFFFFF total))

/-- A number from its point on. -/
def fraction (negative : Bool) (significand : Nat) (shift : Nat) : Reader Number := do
  skip
  let digits ← takeWhile isDigit
  if digits.isEmpty then
    match ← peek with
    | none => fail .endInValue
    | some _ => fail .invalidNumber
  else
    let (significand, dropped) := gather significand digits
    let shift : Int := shift - ((digits.length - dropped : Nat) : Int)
    match ← peek with
    | some 101 | some 69 => exponent negative significand shift
    | _ => scaled negative significand shift

/-- A number after its integer digits, of which `dropped` did not fit into the significand. An integer
    below the range of 64 bits, or the negative zero, is no integer any more. -/
def afterInteger (negative : Bool) (significand dropped : Nat) : Reader Number := do
  match ← peek with
  | some 46 => fraction negative significand dropped
  | some 101 | some 69 => exponent negative significand dropped
  | _ =>
    if dropped ≠ 0 then scaled negative significand dropped
    else if !negative then return .integer significand
    else if significand = 0 ∨ 0x8000000000000000 < significand then return .float (-.ofNat significand)
    else return .integer (-significand)

/-- A number after its sign. The digits are gathered in a 64-bit word as long as they fit, and the
    result is the word multiplied or divided by a power of ten. Both are rounded, so the number is not
    always the nearest one. -/
def number (negative : Bool) : Reader Number := do
  match ← next with
  | none => fail .endInValue
  | some first =>
    if first = 48 then
      match ← peek with
      | some byte => if isDigit byte then fail .invalidNumber else afterInteger negative 0 0
      | none => afterInteger negative 0 0
    else if isDigit first then
      let digits ← takeWhile isDigit
      let (significand, dropped) := gather (digitValue first) digits
      afterInteger negative significand dropped
    else fail .invalidNumber

/-- Goes past a number after its sign, without a value. -/
def skipNumber : Reader Unit := do
  match ← next with
  | some first =>
    if first = 48 then
      match ← peek with
      | some byte => if isDigit byte then fail .invalidNumber
      | none => pure ()
    else if isDigit first then
      let _ ← takeWhile isDigit
    else fail .invalidNumber
  | none => fail .invalidNumber
  if (← peek) = some 46 then
    skip
    let digits ← takeWhile isDigit
    if digits.isEmpty then fail .invalidNumber
  match ← peek with
  | some 101 | some 69 =>
    skip
    match ← peek with
    | some 43 | some 45 => skip
    | _ => pure ()
    match ← next with
    | some byte =>
      if isDigit byte then
        let _ ← takeWhile isDigit
      else fail .invalidNumber
    | none => fail .invalidNumber
  | _ => pure ()

end Reader

end ExperimentCharts.Json
