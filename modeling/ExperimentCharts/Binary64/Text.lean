import ExperimentCharts.Binary64.Decimal

namespace ExperimentCharts

/-- The decisions a format makes on how numbers are written. -/
structure NumberStyle where
  /-- A whole number ends in ".0". -/
  keepsPoint : Bool
  /-- Whether a number is written without an exponent, by the power of ten of its first digit. -/
  positional : Int → Bool
  /-- A positive exponent is written with its sign. -/
  plusSign : Bool
  /-- Which of two equally near decimals is written. -/
  tie : Binary64.Tie

namespace NumberStyle

/-- Plain numbers: never an exponent, and no point in a whole number. -/
def plain : NumberStyle := ⟨false, fun _ => true, false, .upward⟩

/-- Numbers in lists for the log: at least one decimal. -/
def listed : NumberStyle := ⟨true, fun power => -5 < power && power < 16, false, .upward⟩

/-- Numbers quoted from a file in a message about it. -/
def quoted : NumberStyle := ⟨true, fun power => -6 < power && power < 16, true, .even⟩

end NumberStyle

namespace Binary64

/-- The digits of a decimal with the point in its place. -/
def positionalText (keepsPoint : Bool) (digits : List Char) (exponent : Int) : List Char :=
  if 0 ≤ exponent then
    digits ++ List.replicate exponent.natAbs '0' ++ (if keepsPoint then ['.', '0'] else [])
  else
    let places := exponent.natAbs
    if places < digits.length then
      digits.take (digits.length - places) ++ '.' :: digits.drop (digits.length - places)
    else
      '0' :: '.' :: List.replicate (places - digits.length) '0' ++ digits

/-- The digits of a decimal with the point after the first one and an exponent. -/
def exponentText (plusSign : Bool) (digits : List Char) (power : Int) : List Char :=
  let significand := match digits with
    | [] => []
    | first :: [] => [first]
    | first :: rest => first :: '.' :: rest
  let sign := if power < 0 then ['-'] else if plusSign then ['+'] else []
  significand ++ 'e' :: sign ++ (toString power.natAbs).toList

/-- The text of a finite magnitude. -/
def magnitudeText (style : NumberStyle) (rank : Nat) : List Char :=
  if rank = 0 then positionalText style.keepsPoint ['0'] 0
  else
    let decimal := shortest style.tie rank
    let digits := (toString decimal.coefficient).toList
    let power := decimal.exponent + (digits.length - 1 : Nat)
    if style.positional power then positionalText style.keepsPoint digits decimal.exponent
    else exponentText style.plusSign digits power

/-- The text of a number; what is not a number has no sign. -/
def render (style : NumberStyle) : Binary64 → String
  | .nan _ => "NaN"
  | .number negative rank =>
    let magnitude := if rank.val = infiniteRank then "inf".toList else magnitudeText style rank.val
    String.ofList (if negative then '-' :: magnitude else magnitude)

/-- The plain text of a number. -/
def toText (x : Binary64) : String := x.render .plain

/-- The value of a list of decimal digits. -/
def digitsValue (digits : List Char) : Nat :=
  digits.foldl (fun value digit => value * 10 + (digit.toNat - '0'.toNat)) 0

/-- The exponent after the digits of a number: nothing, or a letter e with an integer. -/
def readExponent? : List Char → Option Int
  | [] => some 0
  | mark :: rest =>
    if mark = 'e' ∨ mark = 'E' then
      let (negative, digits) := match rest with
        | '-' :: digits => (true, digits)
        | '+' :: digits => (false, digits)
        | digits => (false, digits)
      if digits.isEmpty ∨ digits.any (fun c => !c.isDigit) then none
      else if negative then some (-(digitsValue digits : Int)) else some (digitsValue digits)
    else none

/-- A decimal: digits with at most one point among them, at least one digit in all, and possibly an
    exponent. -/
def readDecimal? (text : List Char) : Option Decimal := do
  let whole := text.takeWhile Char.isDigit
  let rest := text.dropWhile Char.isDigit
  let (fraction, rest) := match rest with
    | '.' :: rest => (rest.takeWhile Char.isDigit, rest.dropWhile Char.isDigit)
    | rest => ([], rest)
  if whole.isEmpty && fraction.isEmpty then none
  else
    let exponent ← readExponent? rest
    some ⟨digitsValue (whole ++ fraction), exponent - fraction.length⟩

/-- A number without its sign: a decimal, or one of three words in any case. -/
def readMagnitude? (negative : Bool) (text : List Char) : Option Binary64 :=
  let word := String.ofList (text.map Char.toLower)
  if word = "nan" then some (.nan negative)
  else if word = "inf" ∨ word = "infinity" then some (infinity negative)
  else (readDecimal? text).map (ofDecimal negative)

/-- The number a text stands for, correctly rounded; nothing may stand around it. -/
def read? (text : String) : Option Binary64 :=
  match text.toList with
  | '-' :: rest => readMagnitude? true rest
  | '+' :: rest => readMagnitude? false rest
  | rest => readMagnitude? false rest

end Binary64

end ExperimentCharts
