import ExperimentCharts.Binary64.Text
import Mathlib.Algebra.Order.Field.Rat
import Mathlib.Data.List.TakeWhile

namespace ExperimentCharts

namespace Binary64

/-- The value of digits is the one that the library knows. -/
theorem digitsValue_eq_ofDigitChars (digits : List Char) :
    digitsValue digits = Nat.ofDigitChars 10 digits 0 := by
  rw [digitsValue, Nat.ofDigitChars]
  congr 1
  funext value digit
  rw [Nat.mul_comm]

/-- The digits of a natural number have its value. -/
theorem digitsValue_toDigits (n : Nat) : digitsValue (Nat.toDigits 10 n) = n := by
  rw [digitsValue_eq_ofDigitChars, Nat.ofDigitChars_ten_toDigits]

theorem digitsValue_append_zeros (digits : List Char) (count : Nat) :
    digitsValue (digits ++ List.replicate count '0') = digitsValue digits * 10 ^ count := by
  rw [digitsValue_eq_ofDigitChars, digitsValue_eq_ofDigitChars, Nat.ofDigitChars_append,
    Nat.ofDigitChars_replicate_zero, Nat.mul_comm]

theorem digitsValue_zeros_append (digits : List Char) (count : Nat) :
    digitsValue (List.replicate count '0' ++ digits) = digitsValue digits := by
  rw [digitsValue_eq_ofDigitChars, digitsValue_eq_ofDigitChars, Nat.ofDigitChars_append,
    Nat.ofDigitChars_replicate_zero, Nat.mul_zero]

theorem isDigit_of_mem_toDigits {n : Nat} {c : Char} (hc : c ∈ Nat.toDigits 10 n) : c.isDigit = true :=
  Nat.isDigit_of_mem_toDigits (by decide) (by decide) hc

theorem isDigit_of_mem_zeros {count : Nat} {c : Char} (hc : c ∈ List.replicate count '0') :
    c.isDigit = true := by
  rw [List.eq_of_mem_replicate hc]
  decide

end Binary64

open Binary64

/-- A decimal as it is written: digits, possibly with a sign before and a point among them. -/
structure Numeral where
  negative : Bool
  whole : List Char
  fraction : List Char
  whole_ne_nil : whole ≠ []
  isDigit_whole : ∀ c ∈ whole, c.isDigit = true
  isDigit_fraction : ∀ c ∈ fraction, c.isDigit = true

namespace Numeral

/-- Decimals with the point before them; without decimals there is no point. -/
def pointed : List Char → List Char
  | [] => []
  | digit :: digits => '.' :: digit :: digits

def magnitudeChars (numeral : Numeral) : List Char := numeral.whole ++ pointed numeral.fraction

/-- The numeral as a text. -/
def text (numeral : Numeral) : String :=
  String.ofList (if numeral.negative then '-' :: numeral.magnitudeChars else numeral.magnitudeChars)

def magnitude (numeral : Numeral) : ℚ :=
  digitsValue (numeral.whole ++ numeral.fraction) / 10 ^ numeral.fraction.length

/-- The number that a numeral stands for. -/
def value (numeral : Numeral) : ℚ := if numeral.negative then -numeral.magnitude else numeral.magnitude

theorem pointed_of_ne_nil {fraction : List Char} (hfraction : fraction ≠ []) : pointed fraction = '.' :: fraction := by
  obtain ⟨digit, digits, rfl⟩ := List.exists_cons_of_ne_nil hfraction
  rfl

theorem takeWhile_pointed (fraction : List Char) : (pointed fraction).takeWhile Char.isDigit = [] := by
  cases fraction with
  | nil => rfl
  | cons digit digits => rfl

theorem tail_pointed (fraction : List Char) : (pointed fraction).tail = fraction := by
  cases fraction with
  | nil => rfl
  | cons digit digits => rfl

/-- A numeral has a digit before its point, so that no text of one starts with a point or is empty. -/
theorem exists_magnitudeChars_eq_cons (numeral : Numeral) :
    ∃ first rest, numeral.magnitudeChars = first :: rest ∧ first.isDigit = true := by
  obtain ⟨first, rest, hwhole⟩ := List.exists_cons_of_ne_nil numeral.whole_ne_nil
  refine ⟨first, rest ++ pointed numeral.fraction, by rw [magnitudeChars, hwhole, List.cons_append], ?_⟩
  exact numeral.isDigit_whole first (hwhole ▸ List.mem_cons_self)

/-- The digits before the point are those up to the first other character. -/
theorem takeWhile_magnitudeChars (numeral : Numeral) :
    numeral.magnitudeChars.takeWhile Char.isDigit = numeral.whole := by
  rw [magnitudeChars, List.takeWhile_append_of_pos numeral.isDigit_whole, takeWhile_pointed, List.append_nil]

/-- The digits before the point are the longest run of digits, and what follows is told by the point. -/
theorem ext_magnitudeChars {numeral other : Numeral} (hsign : numeral.negative = other.negative)
    (hchars : numeral.magnitudeChars = other.magnitudeChars) : numeral = other := by
  have hwhole : numeral.whole = other.whole := by
    rw [← takeWhile_magnitudeChars, hchars, takeWhile_magnitudeChars]
  have hpointed : pointed numeral.fraction = pointed other.fraction := by
    rwa [magnitudeChars, magnitudeChars, hwhole, List.append_cancel_left_eq] at hchars
  have hfraction : numeral.fraction = other.fraction := by
    rw [← tail_pointed numeral.fraction, hpointed, tail_pointed]
  cases numeral
  cases other
  cases hsign
  cases hwhole
  cases hfraction
  rfl

theorem not_minus_cons_eq {numeral other : Numeral} : '-' :: numeral.magnitudeChars ≠ other.magnitudeChars := by
  intro hchars
  obtain ⟨first, rest, hfirst, hdigit⟩ := other.exists_magnitudeChars_eq_cons
  rw [hfirst] at hchars
  rw [← (List.cons.inj hchars).1] at hdigit
  exact absurd hdigit (by decide)

/-- A text is written in at most one way as a numeral, so that its value is well defined. -/
theorem text_injective : Function.Injective text := by
  intro numeral other htext
  have hchars := String.ofList_injective htext
  cases hsign : numeral.negative <;> cases hsign' : other.negative <;>
    simp only [hsign, hsign', Bool.false_eq_true, if_false, if_true] at hchars
  · exact ext_magnitudeChars (hsign.trans hsign'.symm) hchars
  · exact absurd hchars.symm not_minus_cons_eq
  · exact absurd hchars not_minus_cons_eq
  · exact ext_magnitudeChars (hsign.trans hsign'.symm) (List.cons.inj hchars).2

/-- A numeral has the digits of a decimal, with the point in its place. -/
structure Writes (numeral : Numeral) (digits : List Char) (exponent : Int) : Prop where
  chars_eq : positionalText false digits exponent = numeral.magnitudeChars
  length_fraction : numeral.fraction.length = (-exponent).toNat
  digitsValue_eq : digitsValue (numeral.whole ++ numeral.fraction) = digitsValue digits * 10 ^ exponent.toNat

section

variable (negative : Bool) {digits : List Char} {exponent : Int} (hdigits : ∀ c ∈ digits, c.isDigit = true)

include hdigits

/-- Without decimals the digits are followed by zeros. -/
theorem exists_writes_of_nonneg (hnonempty : digits ≠ []) (hexponent : 0 ≤ exponent) :
    ∃ numeral : Numeral, numeral.negative = negative ∧ numeral.Writes digits exponent := by
  have hzeros : ∀ c ∈ digits ++ List.replicate exponent.natAbs '0', c.isDigit = true :=
    fun c hc => (List.mem_append.mp hc).elim (hdigits c) isDigit_of_mem_zeros
  refine ⟨⟨negative, digits ++ List.replicate exponent.natAbs '0', [], by simp [hnonempty], hzeros, by simp⟩, rfl,
    ?_, ?_, ?_⟩
  · rw [positionalText, if_pos hexponent, if_neg (by decide)]
    rfl
  · simp only [List.length_nil]
    omega
  · rw [List.append_nil, digitsValue_append_zeros, show exponent.natAbs = exponent.toNat by omega]

/-- The point stands among the digits. -/
theorem exists_writes_of_lt_length (hexponent : exponent < 0) (hinside : exponent.natAbs < digits.length) :
    ∃ numeral : Numeral, numeral.negative = negative ∧ numeral.Writes digits exponent := by
  have hwhole : digits.take (digits.length - exponent.natAbs) ≠ [] := by
    apply List.ne_nil_of_length_pos
    rw [List.length_take]
    omega
  have hlength : (digits.drop (digits.length - exponent.natAbs)).length = exponent.natAbs := by
    rw [List.length_drop]
    omega
  have hfraction : digits.drop (digits.length - exponent.natAbs) ≠ [] :=
    List.ne_nil_of_length_pos (by rw [hlength]; omega)
  refine ⟨⟨negative, digits.take (digits.length - exponent.natAbs), digits.drop (digits.length - exponent.natAbs),
    hwhole, fun c hc => hdigits c (List.mem_of_mem_take hc), fun c hc => hdigits c (List.mem_of_mem_drop hc)⟩, rfl,
    ?_, ?_, ?_⟩
  · rw [magnitudeChars, pointed_of_ne_nil hfraction, positionalText, if_neg (by omega)]
    exact if_pos hinside
  · rw [hlength]
    omega
  · rw [List.take_append_drop, show exponent.toNat = 0 by omega, pow_zero, Nat.mul_one]

/-- Zeros stand before the digits. -/
theorem exists_writes_of_length_le (hexponent : exponent < 0) (houtside : digits.length ≤ exponent.natAbs) :
    ∃ numeral : Numeral, numeral.negative = negative ∧ numeral.Writes digits exponent := by
  have hlength : (List.replicate (exponent.natAbs - digits.length) '0' ++ digits).length = exponent.natAbs := by
    rw [List.length_append, List.length_replicate]
    omega
  have hfraction : List.replicate (exponent.natAbs - digits.length) '0' ++ digits ≠ [] :=
    List.ne_nil_of_length_pos (by rw [hlength]; omega)
  refine ⟨⟨negative, ['0'], List.replicate (exponent.natAbs - digits.length) '0' ++ digits, by decide, by simp,
    fun c hc => (List.mem_append.mp hc).elim isDigit_of_mem_zeros (hdigits c)⟩, rfl, ?_, ?_, ?_⟩
  · rw [magnitudeChars, pointed_of_ne_nil hfraction, positionalText, if_neg (by omega)]
    exact if_neg (by omega)
  · rw [hlength]
    omega
  · have hzeros : ['0'] ++ (List.replicate (exponent.natAbs - digits.length) '0' ++ digits) =
        List.replicate (exponent.natAbs - digits.length + 1) '0' ++ digits := by
      rw [List.replicate_succ]
      rfl
    rw [hzeros, digitsValue_zeros_append, show exponent.toNat = 0 by omega, pow_zero, Nat.mul_one]

end

/-- Every decimal is written by a numeral of either sign, wherever the point falls. -/
theorem exists_writes (negative : Bool) (coefficient : Nat) (exponent : Int) :
    ∃ numeral : Numeral, numeral.negative = negative ∧ numeral.Writes (Nat.toDigits 10 coefficient) exponent := by
  have hdigits : ∀ c ∈ Nat.toDigits 10 coefficient, c.isDigit = true := fun c hc => isDigit_of_mem_toDigits hc
  rcases Int.lt_or_le exponent 0 with hnegative | hnonneg
  · rcases Nat.lt_or_ge exponent.natAbs (Nat.toDigits 10 coefficient).length with hinside | houtside
    · exact exists_writes_of_lt_length negative hdigits hnegative hinside
    · exact exists_writes_of_length_le negative hdigits hnegative houtside
  · exact exists_writes_of_nonneg negative hdigits Nat.toDigits_ne_nil hnonneg

end Numeral

end ExperimentCharts
