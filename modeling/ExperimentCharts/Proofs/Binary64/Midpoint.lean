import ExperimentCharts.Proofs.Binary64.Real

namespace ExperimentCharts.Binary64

variable {x y z : Binary64}

theorem isFinite_of_not_isInfinite (hnan : x.isNaN = false) (hrange : x.isInfinite = false) : x.isFinite = true := by
  obtain ⟨negative, rank, rfl⟩ := exists_number_of_isNaN hnan
  simpa [isFinite, isInfinite] using hrange

/-- A quotient is the exact fraction of units, rounded once. Only a positive divisor is needed; the sign of the
    dividend carries over. -/
theorem div_eq_nearest {negative : Bool} {a b : Fin (infiniteRank + 1)} (ha : a.val ≠ infiniteRank)
    (hb : b.val ≠ infiniteRank) (hpositive : 0 < b.val) :
    number negative a / number false b = nearest negative (units a.val * unitsPerOne) (units b.val) := by
  change div _ _ = _
  rw [div, if_neg ha, if_neg hb, if_neg hpositive.ne', Bool.bne_false]

section Quotients

variable (hx : x.isFinite = true) (hy : 0 < y) (hfinite : y.isFinite = true)

include hx hy hfinite

/-- A finite number over a positive finite one gives a number. -/
theorem isNaN_div : (x / y).isNaN = false := by
  obtain ⟨negative, a, rfl⟩ := exists_number_of_isNaN (isNaN_of_isFinite hx)
  obtain ⟨b, rfl, hb⟩ := exists_number_of_pos hy
  rw [isFinite_number] at hx hfinite
  rw [div_eq_nearest hx hfinite hb]
  rfl

theorem neg_div_eq : -x / y = -(x / y) := by
  obtain ⟨negative, a, rfl⟩ := exists_number_of_isNaN (isNaN_of_isFinite hx)
  obtain ⟨b, rfl, hb⟩ := exists_number_of_pos hy
  rw [isFinite_number] at hx hfinite
  change number (!negative) a / _ = _
  rw [div_eq_nearest hx hfinite hb, div_eq_nearest hx hfinite hb]
  rfl

/-- A quotient is never rounded down past a number of the format. -/
theorem le_toReal_div (hz : z.isNaN = false) (hle : z.toReal * y.toReal ≤ x.toReal) :
    z.toReal ≤ (x / y).toReal := by
  obtain ⟨s, a, rfl⟩ := exists_number_of_isNaN (isNaN_of_isFinite hx)
  obtain ⟨b, rfl, hb⟩ := exists_number_of_pos hy
  obtain ⟨t, c, rfl⟩ := exists_number_of_isNaN hz
  rw [isFinite_number] at hx hfinite
  have hexact : signedUnits t c.val * units b.val ≤ signedUnits s a.val * unitsPerOne := by
    rw [toReal_number_false b, toReal_number t, toReal_number s, ← mul_div_assoc,
      div_le_div_iff_of_pos_right unitsPerOne_cast_pos, div_mul_eq_mul_div, div_le_iff₀ unitsPerOne_cast_pos] at hle
    exact_mod_cast hle
  have hc := Nat.le_of_lt_succ c.isLt
  have hdivisor := units_pos hb
  rw [div_eq_nearest hx hfinite hb, ← le_iff_toReal rfl rfl, nearest, le_iff_position rfl rfl]
  cases s with
  | false =>
    cases t with
    | false =>
      simp only [signedUnits, Bool.false_eq_true, if_false, ← Nat.cast_mul, Nat.cast_le] at hexact ⊢
      exact le_nearestRank hdivisor hc hexact
    | true =>
      simp only [Bool.false_eq_true, if_true, if_false]
      omega
  | true =>
    cases t with
    | false =>
      -- A number that is not negative lies below one that is not positive only if both are zero.
      simp only [signedUnits, Bool.false_eq_true, if_true, if_false, Int.neg_mul, ← Nat.cast_mul] at hexact ⊢
      have hrank : nearestRank (units a.val * unitsPerOne) (units b.val) ≤ 0 :=
        nearestRank_le hdivisor (Nat.zero_le _) (by omega)
      have hzero : c.val = 0 := by
        by_contra hne
        have hproduct := Nat.mul_pos (units_pos (Nat.pos_of_ne_zero hne)) hdivisor
        omega
      omega
    | true =>
      simp only [signedUnits, if_true, Int.neg_mul, neg_le_neg_iff, ← Nat.cast_mul, Nat.cast_le] at hexact ⊢
      exact nearestRank_le hdivisor hc hexact

/-- A quotient is never rounded up past a number of the format. -/
theorem toReal_div_le (hz : z.isNaN = false) (hle : x.toReal ≤ z.toReal * y.toReal) :
    (x / y).toReal ≤ z.toReal := by
  have hnegated : (-z).isNaN = false := by
    obtain ⟨t, c, rfl⟩ := exists_number_of_isNaN hz
    rfl
  have hbelow : (-z).toReal * y.toReal ≤ (-x).toReal := by
    rw [toReal_neg, toReal_neg, neg_mul]
    exact neg_le_neg hle
  have hrounded := le_toReal_div ((isFinite_neg x).trans hx) hy hfinite hnegated hbelow
  rw [neg_div_eq hx hy hfinite, toReal_neg, toReal_neg] at hrounded
  exact neg_le_neg_iff.mp hrounded

end Quotients

/-- Twice the value of a rank is the value of a rank, which may lie beyond infinity. -/
theorem units_double (rank : Nat) : ∃ double, units double = 2 * units rank := by
  obtain ⟨shift, significand, hrank⟩ := exists_isSignificand rank
  obtain ⟨double, hdouble⟩ := exists_units_eq (shift + 1) hrank.lt.le
  refine ⟨double, ?_⟩
  rw [hdouble, hrank.units_eq, pow_succ]
  ring

/-- Twice a number is a number again, unless it is out of range. -/
theorem exists_toReal_double (hx : x.isNaN = false) :
    (∃ z : Binary64, z.isNaN = false ∧ z.toReal = 2 * x.toReal) ∨ (infinity false).toReal ≤ |2 * x.toReal| := by
  obtain ⟨negative, rank, rfl⟩ := exists_number_of_isNaN hx
  obtain ⟨double, hdouble⟩ := units_double rank.val
  by_cases hrange : double ≤ infiniteRank
  · refine .inl ⟨.number negative ⟨double, Nat.lt_succ_of_le hrange⟩, rfl, ?_⟩
    have hsigned : signedUnits negative double = 2 * signedUnits negative rank.val := by
      cases negative <;> simp [signedUnits, hdouble]
    rw [toReal_number, toReal_number, hsigned, Int.cast_mul, mul_div_assoc, Int.cast_ofNat]
  · right
    have hunits : (units infiniteRank : ℝ) ≤ 2 * units rank.val := by
      have hless := units_strictMono.monotone (Nat.le_of_not_le hrange)
      rw [hdouble] at hless
      exact_mod_cast hless
    have hvalue : |2 * (number negative rank).toReal| = 2 * units rank.val / unitsPerOne := by
      rw [abs_mul, abs_toReal_number, Nat.abs_ofNat, mul_div_assoc]
    rw [hvalue, infinity, toReal_number_false]
    exact div_le_div_of_nonneg_right hunits unitsPerOne_cast_pos.le

section Sums

variable (hx : x.isFinite = true) (hy : y.isFinite = true)

include hx hy

theorem isNaN_add : (x + y).isNaN = false := by
  obtain ⟨zeroNegative, amount, hsum, -⟩ := exists_add_eq_ofUnits hx hy
  rw [hsum, ofUnits]
  split <;> rfl

/-- A sum of two numbers is not rounded below twice the lesser one, as long as it stays finite. -/
theorem two_mul_toReal_le_add (hle : x.toReal ≤ y.toReal) (hsum : (x + y).isFinite = true) :
    2 * x.toReal ≤ (x + y).toReal := by
  rcases exists_toReal_double (isNaN_of_isFinite hx) with ⟨z, hz, hdouble⟩ | hrange
  · rw [← hdouble]
    exact le_toReal_add hx hy hz (by linarith)
  · have hbelow := toReal_lt_infinity ((isFinite_neg (x + y)).trans hsum)
    have habove := toReal_lt_infinity hsum
    rw [toReal_neg] at hbelow
    -- A finite sum of terms from `x` up leaves only a negative `x` whose double is out of range.
    rcases le_abs.mp hrange with hlarge | hsmall
    · have hreached := le_toReal_add hx hy (z := infinity false) rfl (by linarith)
      linarith
    · linarith

theorem toReal_add_le_two_mul (hle : x.toReal ≤ y.toReal) (hsum : (x + y).isFinite = true) :
    (x + y).toReal ≤ 2 * y.toReal := by
  have hinfinity : (infinity true).toReal = -(infinity false).toReal := toReal_neg (infinity false)
  rcases exists_toReal_double (isNaN_of_isFinite hy) with ⟨z, hz, hdouble⟩ | hrange
  · rw [← hdouble]
    exact toReal_add_le hx hy hz (by linarith)
  · have hbelow := toReal_lt_infinity ((isFinite_neg (x + y)).trans hsum)
    have habove := toReal_lt_infinity hsum
    rw [toReal_neg] at hbelow
    rcases le_abs.mp hrange with hlarge | hsmall
    · linarith
    · have hreached := toReal_add_le hx hy (z := infinity true) rfl (by linarith)
      linarith

end Sums

theorem toReal_two : (2 : Binary64).toReal = 2 := by
  have htwo := @toReal_natCast 2 (by norm_num)
  rwa [Nat.cast_ofNat] at htwo

theorem isFinite_two : (2 : Binary64).isFinite = true := @isFinite_natCast 2 (by norm_num)

theorem two_pos : (0 : Binary64) < 2 := by
  rw [pos_iff_toReal (isNaN_of_isFinite isFinite_two), toReal_two]
  norm_num

/-- The mean of two finite numbers lies between them, although both the sum and its half are rounded. Only a sum out
    of range is excluded. -/
theorem add_div_two_mem (hx : x.isFinite = true) (hy : y.isFinite = true) (hle : x ≤ y)
    (hrange : (x + y).isInfinite = false) : x ≤ (x + y) / 2 ∧ (x + y) / 2 ≤ y := by
  have hsum := isFinite_of_not_isInfinite (isNaN_add hx hy) hrange
  have hnan := isNaN_div hsum two_pos isFinite_two
  rw [le_iff_toReal (isNaN_of_isFinite hx) (isNaN_of_isFinite hy)] at hle
  rw [le_iff_toReal (isNaN_of_isFinite hx) hnan, le_iff_toReal hnan (isNaN_of_isFinite hy)]
  constructor
  · apply le_toReal_div hsum two_pos isFinite_two (isNaN_of_isFinite hx)
    rw [toReal_two, mul_comm]
    exact two_mul_toReal_le_add hx hy hle hsum
  · apply toReal_div_le hsum two_pos isFinite_two (isNaN_of_isFinite hy)
    rw [toReal_two, mul_comm]
    exact toReal_add_le_two_mul hx hy hle hsum

theorem isInfinite_div_two (hx : x.isInfinite = true) : (x / 2).isInfinite = true := by
  obtain ⟨b, htwo, -⟩ := exists_number_of_pos two_pos
  have hfinite := isFinite_two
  rw [htwo, isFinite_number] at hfinite
  cases x with
  | nan negative => cases hx
  | number negative rank =>
    have hrank : rank.val = infiniteRank := by simpa [isInfinite] using hx
    rw [htwo]
    change isInfinite (div _ _) = true
    rw [div, if_pos hrank, if_neg hfinite]
    simp [infinity, isInfinite]

end ExperimentCharts.Binary64
