import ExperimentCharts.Axis.Ticks
import ExperimentCharts.Proofs.Binary64.Error
import ExperimentCharts.Proofs.Binary64.Millionths

namespace ExperimentCharts

open Binary64

/-- The whole number nearest to a magnitude; a half goes up. -/
def wholeOf (rank : Nat) : Nat := (2 * units rank + unitsPerOne) / (2 * unitsPerOne)

/-- Greater magnitudes have no lesser nearest whole number. -/
theorem wholeOf_mono {rank other : Nat} (hle : rank ≤ other) : wholeOf rank ≤ wholeOf other := by
  have hunits := units_strictMono.monotone hle
  exact Nat.div_le_div_right (by omega)

theorem two_mul_unitsPerOne_pos : 0 < 2 * unitsPerOne := Nat.mul_pos (by decide) unitsPerOne_pos

theorem one_le_wholeOf {rank : Nat} (hrank : unitsPerOne ≤ units rank) : 1 ≤ wholeOf rank := by
  rw [wholeOf, Nat.le_div_iff_mul_le two_mul_unitsPerOne_pos]
  omega

/-- A magnitude up to a whole number is not rounded beyond it. -/
theorem wholeOf_le {rank whole : Nat} (hrank : units rank ≤ whole * unitsPerOne) : wholeOf rank ≤ whole := by
  have hpositive := unitsPerOne_pos
  rw [← Nat.lt_add_one_iff, wholeOf, Nat.div_lt_iff_lt_mul two_mul_unitsPerOne_pos, Nat.mul_left_comm, Nat.add_mul]
  omega

theorem abs_wholeOf_sub_le (rank : Nat) : |(wholeOf rank : ℝ) - units rank / unitsPerOne| ≤ 1 / 2 := by
  have hunit := unitsPerOne_cast_pos
  have hbelow : ((wholeOf rank * (2 * unitsPerOne) : Nat) : ℝ) ≤ (2 * units rank + unitsPerOne : Nat) :=
    Nat.cast_le.mpr (Nat.div_mul_le_self _ _)
  have habove : ((2 * units rank + unitsPerOne : Nat) : ℝ) < (2 * unitsPerOne * (wholeOf rank + 1) : Nat) :=
    Nat.cast_lt.mpr (Nat.lt_mul_div_succ _ two_mul_unitsPerOne_pos)
  push_cast at hbelow habove
  have hlower : (wholeOf rank : ℝ) - 1 / 2 ≤ units rank / unitsPerOne := by
    rw [le_div_iff₀ hunit]
    linarith
  have hupper : (units rank : ℝ) / unitsPerOne ≤ wholeOf rank + 1 / 2 := by
    rw [div_le_iff₀ hunit]
    linarith
  rw [abs_le]
  constructor <;> linarith

theorem wholeOf_eq_zero {rank : Nat} (hrank : units rank = 0) : wholeOf rank = 0 :=
  Nat.le_zero.mp (wholeOf_le (by omega))

/-- Rounding treats both signs alike. -/
theorem roundUnits_signedUnits (negative : Bool) (rank : Nat) :
    roundUnits (signedUnits negative rank) = if negative then -(wholeOf rank : Int) else wholeOf rank := by
  cases negative with
  | false =>
    simp only [roundUnits, signedUnits, Bool.false_eq_true, if_false, Int.natAbs_natCast]
    rw [if_neg (by omega)]
    rfl
  | true =>
    simp only [roundUnits, signedUnits, if_true, Int.natAbs_neg, Int.natAbs_natCast]
    change (if _ then -(wholeOf rank : Int) else wholeOf rank) = _
    split
    · rfl
    · rw [wholeOf_eq_zero (by omega)]
      rfl

/-- The count of millionths that a magnitude below one is rounded to. -/
def millionthsOf (rank : Nat) : Nat := wholeOf (nearestRank (units rank * 10 ^ 6) 1)

/-- Greater magnitudes have no fewer millionths. -/
theorem millionthsOf_mono {rank other : Nat} (hle : rank ≤ other) : millionthsOf rank ≤ millionthsOf other := by
  have hunits := Nat.mul_le_mul_right (10 ^ 6) (units_strictMono.monotone hle)
  exact wholeOf_mono (nearestRank_mono Nat.one_pos Nat.one_pos (Nat.mul_le_mul_right 1 hunits))

section BelowOne

variable {rank : Nat} (hrank : units rank ≤ unitsPerOne)

include hrank

/-- A magnitude up to one, times a million, is rounded to a million at most. -/
theorem exists_scaled_le :
    ∃ million : Fin (infiniteRank + 1), ((10 ^ 6 : Nat) : Binary64) = number false million ∧
      million.val < infiniteRank ∧ units million.val = 10 ^ 6 * unitsPerOne ∧
      nearestRank (units rank * 10 ^ 6) 1 ≤ million.val := by
  obtain ⟨million, hmillion, hfinite, hunits⟩ := exists_natCast_eq (show 10 ^ 6 ≤ 2 ^ 53 by decide)
  refine ⟨million, hmillion, hfinite, hunits, nearestRank_le Nat.one_pos hfinite.le ?_⟩
  rw [hunits, Nat.mul_one, Nat.mul_comm]
  exact Nat.mul_le_mul_left _ hrank

theorem millionthsOf_le : millionthsOf rank ≤ 10 ^ 6 := by
  obtain ⟨million, -, -, hunits, hle⟩ := exists_scaled_le hrank
  apply wholeOf_le
  rw [← hunits]
  exact units_strictMono.monotone hle

/-- Scaling is off by less than 2⁻¹² millionths, and counting by half of one. -/
theorem abs_millionthsOf_sub_le :
    |(millionthsOf rank : ℝ) / 10 ^ 6 - units rank / unitsPerOne| ≤ 6 / 10 ^ 7 := by
  have hunit := unitsPerOne_cast_pos
  have hone : (units rank : ℝ) / unitsPerOne ≤ 1 := by
    rw [div_le_one hunit]
    exact_mod_cast hrank
  have hexact : ((units rank * 10 ^ 6 : Nat) : ℝ) / unitsPerOne = 10 ^ 6 * (units rank / unitsPerOne) := by
    push_cast
    ring
  have hscaled := @within_nearest (units rank * 10 ^ 6) (by rw [hexact]; linarith)
  have hcounted := abs_le.mp (abs_wholeOf_sub_le (nearestRank (units rank * 10 ^ 6) 1))
  have hlower := hscaled.sub_le
  have hupper := hscaled.le_add
  rw [toReal_nearest, hexact] at hlower hupper
  rw [millionthsOf, abs_le]
  constructor <;> linarith [hcounted.1, hcounted.2]

end BelowOne

/-- A whole number of at most 53 bits is a number of the format, of either sign. -/
theorem exists_nearest_whole (negative : Bool) {n : Nat} (hn : n ≤ 2 ^ 53) :
    ∃ rank, nearest negative (n * unitsPerOne) 1 = number negative rank ∧ rank.val ≠ infiniteRank ∧
      units rank.val = n * unitsPerOne := by
  obtain ⟨rank, hnumber, hfinite, hunits⟩ := exists_natCast_eq hn
  refine ⟨rank, nearest_eq_number negative ?_, hfinite.ne, hunits⟩
  rw [← hunits]
  exact nearestRank_units hfinite.le

/-- Rounding to millionths gives the number nearest to their count. -/
theorem roundToMillionths_number (negative : Bool) {rank : Fin (infiniteRank + 1)} (hfinite : rank.val ≠ infiniteRank)
    (hrank : units rank.val ≤ unitsPerOne) :
    roundToMillionths (number negative rank) =
      nearest negative (millionthsOf rank.val * unitsPerOne) (10 ^ 6) := by
  obtain ⟨million, hmillion, hmillionFinite, hunits, hscaled⟩ := exists_scaled_le hrank
  have hliteral : (1000000 : Binary64) = number false million := hmillion
  have hproduct : number negative rank * number false million = nearest negative (units rank.val * 10 ^ 6) 1 := by
    change mul _ _ = _
    rw [mul, if_neg (by omega), Bool.bne_false, hunits]
    exact nearest_congr negative unitsPerOne_pos Nat.one_pos (by ring)
  have hwhole : roundWhole (nearest negative (units rank.val * 10 ^ 6) 1) =
      nearest negative (millionthsOf rank.val * unitsPerOne) 1 := by
    rw [nearest, roundWhole, if_neg (by simp only; omega)]
    have hcount := roundUnits_signedUnits false (nearestRank (units rank.val * 10 ^ 6) 1)
    simp only [signedUnits, Bool.false_eq_true, if_false] at hcount
    rw [hcount, Int.natAbs_natCast]
    rfl
  obtain ⟨count, hcount, hcountFinite, hcountUnits⟩ :=
    exists_nearest_whole negative ((millionthsOf_le hrank).trans (by decide))
  have hpositive : 0 < million.val := by
    rw [← units_strictMono.lt_iff_lt, hunits, units_zero]
    exact Nat.mul_pos (by decide) unitsPerOne_pos
  rw [roundToMillionths, hliteral, hproduct, hwhole, hcount, div_eq_nearest hcountFinite hmillionFinite.ne hpositive,
    hcountUnits, hunits]
  exact nearest_congr negative (Nat.mul_pos (by decide) unitsPerOne_pos) (by decide) (by ring)

/-- The value of the label of a magnitude: from one up the nearest whole number, and below one the nearest count of
    millionths. -/
def labelMagnitude (rank : Nat) : ℚ :=
  if unitsPerOne ≤ units rank then wholeOf rank else millionthsOf rank / 10 ^ 6

theorem labelMagnitude_nonneg (rank : Nat) : 0 ≤ labelMagnitude rank := by
  unfold labelMagnitude
  split <;> positivity

theorem labelMagnitude_zero : labelMagnitude 0 = 0 := by
  have hcount : millionthsOf 0 = 0 := by
    rw [millionthsOf, units_zero, Nat.zero_mul, nearestRank_zero Nat.one_pos, wholeOf_eq_zero units_zero]
  rw [labelMagnitude, if_neg (by rw [units_zero]; exact unitsPerOne_pos.not_ge), hcount, Nat.cast_zero, zero_div]

/-- Both kinds of labels ascend with the magnitudes, and they meet at one. -/
theorem labelMagnitude_mono {rank other : Nat} (hle : rank ≤ other) : labelMagnitude rank ≤ labelMagnitude other := by
  have hunits := units_strictMono.monotone hle
  unfold labelMagnitude
  by_cases hsmall : unitsPerOne ≤ units rank
  · rw [if_pos hsmall, if_pos (hsmall.trans hunits)]
    exact_mod_cast wholeOf_mono hle
  rw [if_neg hsmall]
  by_cases hlarge : unitsPerOne ≤ units other
  · -- At the switch both kinds of labels can be one.
    rw [if_pos hlarge]
    have hcount : (millionthsOf rank : ℚ) ≤ 10 ^ 6 := by exact_mod_cast millionthsOf_le (Nat.le_of_not_le hsmall)
    have hone : (1 : ℚ) ≤ wholeOf other := by exact_mod_cast one_le_wholeOf hlarge
    exact (div_le_one_of_le₀ hcount (by positivity)).trans hone
  · rw [if_neg hlarge]
    have hcount : (millionthsOf rank : ℚ) ≤ millionthsOf other := by exact_mod_cast millionthsOf_mono hle
    exact div_le_div_of_nonneg_right hcount (by positivity)

/-- The value of the label of a number. -/
def labelValue : Binary64 → ℚ
  | .nan _ => 0
  | .number negative rank => if negative then -labelMagnitude rank.val else labelMagnitude rank.val

/-- Labels ascend with the numbers, across zero too. -/
theorem labelValue_le_labelValue {x y : Binary64} (hle : x ≤ y) : labelValue x ≤ labelValue y := by
  obtain ⟨s, a, rfl⟩ := exists_number_of_isNaN (isNaN_of_le hle).1
  obtain ⟨t, b, rfl⟩ := exists_number_of_isNaN (isNaN_of_le hle).2
  rw [le_iff_position rfl rfl] at hle
  have hnonneg := labelMagnitude_nonneg a.val
  have hnonneg' := labelMagnitude_nonneg b.val
  cases s <;> cases t <;> simp only [labelValue, Bool.false_eq_true, if_false, if_true] at hle ⊢
  · exact labelMagnitude_mono (by omega)
  · -- Only the two zeros are left here.
    rw [show a.val = 0 by omega, show b.val = 0 by omega, labelMagnitude_zero, neg_zero]
  · linarith
  · exact neg_le_neg (labelMagnitude_mono (by omega))

/-- The sign does not matter for how far a label is off. -/
theorem abs_labelValue_sub (negative : Bool) (rank : Fin (infiniteRank + 1)) :
    |(labelValue (number negative rank) : ℝ) - (number negative rank).toReal| =
      |(labelMagnitude rank.val : ℝ) - units rank.val / unitsPerOne| := by
  rw [toReal_number]
  cases negative with
  | false => simp only [labelValue, signedUnits, Bool.false_eq_true, if_false, Int.cast_natCast]
  | true =>
    rw [← abs_neg]
    simp only [labelValue, signedUnits, if_true]
    push_cast
    congr 1
    ring

theorem one_le_abs_toReal_iff (negative : Bool) (rank : Fin (infiniteRank + 1)) :
    1 ≤ |(number negative rank).toReal| ↔ unitsPerOne ≤ units rank.val := by
  rw [abs_toReal_number, one_le_div unitsPerOne_cast_pos, Nat.cast_le]

/-- Which kind of label a number has is decided by its rank. -/
theorem one_le_abs_iff (negative : Bool) (rank : Fin (infiniteRank + 1)) :
    1 ≤ (number negative rank).abs ↔ unitsPerOne ≤ units rank.val := by
  rw [Binary64.abs, one_le_iff]
  constructor
  · rintro ⟨other, hother, hunits⟩
    cases hother
    exact hunits
  · exact fun hunits => ⟨rank, rfl, hunits⟩

/-- A numeral is a good label of a number: short and near, and whole from one up. -/
structure Numeral.Labels (numeral : Numeral) (x : ℝ) : Prop where
  length_le : numeral.fraction.length ≤ 6
  of_one_le : 1 ≤ |x| → numeral.fraction = [] ∧ |(numeral.value : ℝ) - x| ≤ 1 / 2
  of_lt_one : |x| < 1 → |(numeral.value : ℝ) - x| ≤ 6 / 10 ^ 7

/-- The text of an integer is a numeral without decimals. -/
theorem exists_toString_eq (negative : Bool) {n : Nat} (hn : 0 < n) :
    ∃ numeral : Numeral, toString (if negative then -(n : Int) else n) = numeral.text ∧
      numeral.negative = negative ∧ numeral.fraction = [] ∧ numeral.magnitude = n := by
  obtain ⟨numeral, hsign, hwrites⟩ := Numeral.exists_writes negative n 0
  have hfraction : numeral.fraction = [] := List.eq_nil_of_length_eq_zero hwrites.length_fraction
  have hchars : Nat.toDigits 10 n = numeral.magnitudeChars := by
    rw [← hwrites.chars_eq]
    simp [positionalText]
  refine ⟨numeral, ?_, hsign, hfraction, ?_⟩
  · rw [Numeral.text, hsign, ← hchars]
    obtain ⟨before, rfl⟩ := Nat.exists_eq_succ_of_ne_zero hn.ne'
    cases negative with
    | false => exact Nat.toString_eq_ofList_toDigits
    | true =>
      change "-" ++ toString before.succ = _
      rw [Nat.toString_eq_ofList_toDigits, if_pos rfl, ← String.toList_inj]
      simp
  · rw [Numeral.magnitude, hwrites.digitsValue_eq, hfraction, digitsValue_toDigits]
    simp

/-- The numbers below 2⁶³ end 2¹⁰ before it, so that none is rounded up to it. -/
theorem wholeOf_lt_two_pow {rank : Nat} (hrank : units rank < 2 ^ 63 * unitsPerOne) : wholeOf rank < 2 ^ 63 := by
  have hpower : units 0x43E0000000000000 = 2 ^ 63 * unitsPerOne := by decide +kernel
  have hbefore : units 0x43DFFFFFFFFFFFFF = (2 ^ 63 - 2 ^ 10) * unitsPerOne := by decide +kernel
  rw [← hpower, units_strictMono.lt_iff_lt] at hrank
  have hle := units_strictMono.monotone (show rank ≤ 0x43DFFFFFFFFFFFFF by omega)
  rw [hbefore] at hle
  have hwhole := wholeOf_le hle
  omega

/-- From one up the label is the text of the nearest whole number, as long as that fits into 64 bits. -/
theorem tickLabel_of_one_le (negative : Bool) {rank : Fin (infiniteRank + 1)} (hfinite : rank.val ≠ infiniteRank)
    (hone : unitsPerOne ≤ units rank.val) (hsmall : units rank.val < 2 ^ 63 * unitsPerOne) :
    tickLabel (number negative rank) =
      toString (if negative then -(wholeOf rank.val : Int) else wholeOf rank.val) := by
  have hwhole := wholeOf_lt_two_pow hsmall
  rw [tickLabel, if_pos ((one_le_abs_iff negative rank).mpr hone), Binary64.round, toInt, if_neg hfinite,
    roundUnits_signedUnits]
  congr 1
  simp only [IntRange.cut, IntRange.signed64]
  split <;> omega

section

variable (negative : Bool) {rank : Fin (infiniteRank + 1)} (hfinite : rank.val ≠ infiniteRank)

include hfinite

theorem exists_label_of_one_le (hone : unitsPerOne ≤ units rank.val) (hsmall : units rank.val < 2 ^ 63 * unitsPerOne) :
    ∃ numeral : Numeral, tickLabel (number negative rank) = numeral.text ∧
      numeral.value = labelValue (number negative rank) ∧ numeral.Labels (number negative rank).toReal := by
  obtain ⟨numeral, htext, hsign, hfraction, hmagnitude⟩ :=
    exists_toString_eq negative (Nat.lt_of_succ_le (one_le_wholeOf hone))
  have hvalue : numeral.value = labelValue (number negative rank) := by
    rw [Numeral.value, hsign, hmagnitude, labelValue, labelMagnitude, if_pos hone]
  have hnear : |(numeral.value : ℝ) - (number negative rank).toReal| ≤ 1 / 2 := by
    rw [hvalue, abs_labelValue_sub, labelMagnitude, if_pos hone, Rat.cast_natCast]
    exact abs_wholeOf_sub_le rank.val
  have hreached := (one_le_abs_toReal_iff negative rank).mpr hone
  exact ⟨numeral, (tickLabel_of_one_le negative hfinite hone hsmall).trans htext, hvalue, by simp [hfraction],
    fun _ => ⟨hfraction, hnear⟩, fun hless => absurd hreached hless.not_ge⟩

/-- Below one it is a good one as well. Scaling rounds before the count is taken, which costs little; dividing rounds
    after it, which costs nothing, because the text is that of the millionth itself. -/
theorem exists_label_of_lt_one (hless : ¬ unitsPerOne ≤ units rank.val) :
    ∃ numeral : Numeral, tickLabel (number negative rank) = numeral.text ∧
      numeral.value = labelValue (number negative rank) ∧ numeral.Labels (number negative rank).toReal := by
  have hle : units rank.val ≤ unitsPerOne := Nat.le_of_not_le hless
  obtain ⟨numeral, htext, hsign, hlength, hmagnitude⟩ := exists_toText_millionths negative (millionthsOf_le hle)
  have hvalue : numeral.value = labelValue (number negative rank) := by
    rw [Numeral.value, hsign, hmagnitude, labelValue, labelMagnitude, if_neg hless]
  have hnear : |(numeral.value : ℝ) - (number negative rank).toReal| ≤ 6 / 10 ^ 7 := by
    rw [hvalue, abs_labelValue_sub, labelMagnitude, if_neg hless]
    push_cast
    exact abs_millionthsOf_sub_le hle
  have hnot := (one_le_abs_toReal_iff negative rank).not.mpr hless
  refine ⟨numeral, ?_, hvalue, hlength, fun hreached => absurd hreached hnot, fun _ => hnear⟩
  rw [tickLabel, if_neg ((one_le_abs_iff negative rank).not.mpr hless), roundToMillionths_number negative hfinite hle,
    htext]

end

/-- The label of every finite number below 2⁶³ is a good one. -/
theorem exists_tickLabel_eq {x : Binary64} (hx : x.isFinite = true) (hsmall : |x.toReal| < 2 ^ 63) :
    ∃ numeral : Numeral, tickLabel x = numeral.text ∧ numeral.value = labelValue x ∧ numeral.Labels x.toReal := by
  obtain ⟨negative, rank, rfl⟩ := exists_number_of_isNaN (isNaN_of_isFinite hx)
  have hfinite := (isFinite_number negative rank).mp hx
  have hunits : units rank.val < 2 ^ 63 * unitsPerOne := by
    rw [abs_toReal_number, div_lt_iff₀ unitsPerOne_cast_pos] at hsmall
    exact_mod_cast hsmall
  by_cases hone : unitsPerOne ≤ units rank.val
  · exact exists_label_of_one_le negative hfinite hone hunits
  · exact exists_label_of_lt_one negative hfinite hone

/-- Below 2⁶³ the label of a tick is a numeral, short and near to the tick, and a text has only one value as a numeral.
    The values of labels ascend with the ticks. -/
theorem tickLabel_numeral :
    (∀ x : Binary64, x.isFinite = true → |x.toReal| < 2 ^ 63 →
        ∃ numeral : Numeral, tickLabel x = numeral.text ∧ numeral.Labels x.toReal) ∧
      ∀ x y : Binary64, x.isFinite = true → |x.toReal| < 2 ^ 63 → y.isFinite = true → |y.toReal| < 2 ^ 63 → x ≤ y →
        ∀ numeral other : Numeral, tickLabel x = numeral.text → tickLabel y = other.text →
          numeral.value ≤ other.value := by
  constructor
  · intro x hx hsmall
    obtain ⟨numeral, htext, -, hlabels⟩ := exists_tickLabel_eq hx hsmall
    exact ⟨numeral, htext, hlabels⟩
  · intro x y hx hsmall hy hsmall' hle numeral other htext htext'
    obtain ⟨found, hfound, hvalue, -⟩ := exists_tickLabel_eq hx hsmall
    obtain ⟨found', hfound', hvalue', -⟩ := exists_tickLabel_eq hy hsmall'
    obtain rfl := Numeral.text_injective (htext.symm.trans hfound)
    obtain rfl := Numeral.text_injective (htext'.symm.trans hfound')
    rw [hvalue, hvalue']
    exact labelValue_le_labelValue hle

/-- The labels on both sides of the switch at one. -/
theorem tickLabel_numeral_at_one :
    (0.9999996 : Binary64) ≤ 1 ∧ ∃ numeral other : Numeral, tickLabel 0.9999996 = numeral.text ∧
      tickLabel 1 = other.text ∧ numeral.Labels (0.9999996 : Binary64).toReal ∧
      other.Labels (1 : Binary64).toReal ∧ numeral.value ≤ other.value := by
  have hle : (0.9999996 : Binary64) ≤ 1 := by decide +kernel
  have hnonneg : (0 : Binary64) ≤ 0.9999996 := by decide +kernel
  have hbound := (le_iff_toReal (isNaN_of_le hle).1 (isNaN_of_le hle).2).mp hle
  have hbound' := (le_iff_toReal (isNaN_of_le hnonneg).1 (isNaN_of_le hnonneg).2).mp hnonneg
  rw [toReal_one] at hbound
  rw [toReal_zero] at hbound'
  have hsmall : |(0.9999996 : Binary64).toReal| < 2 ^ 63 := by
    rw [abs_of_nonneg hbound']
    linarith
  have hone : |(1 : Binary64).toReal| < 2 ^ 63 := by norm_num [toReal_one]
  have hfinite : (0.9999996 : Binary64).isFinite = true := by decide +kernel
  have hfinite' : (1 : Binary64).isFinite = true := by decide +kernel
  obtain ⟨hnumeral, hascend⟩ := tickLabel_numeral
  obtain ⟨numeral, htext, hlabels⟩ := hnumeral 0.9999996 hfinite hsmall
  obtain ⟨other, htext', hlabels'⟩ := hnumeral 1 hfinite' hone
  exact ⟨hle, numeral, other, htext, htext', hlabels, hlabels',
    hascend _ _ hfinite hsmall hfinite' hone hle numeral other htext htext'⟩

-- A number just below one has the label of one, and one just below zero keeps its sign.
example : tickLabel 0.9999996 = "1" ∧ tickLabel (-1e-9) = "-0" := by decide +kernel

end ExperimentCharts
