import ExperimentCharts.Binary64.Decimal
import ExperimentCharts.Proofs.Binary64.Rounding

namespace ExperimentCharts

/-- The value of a decimal, in units, as a fraction. -/
def Decimal.unitsNum (decimal : Decimal) : Nat :=
  decimal.coefficient * 10 ^ decimal.exponent.toNat * Binary64.unitsPerOne

/-- The denominator of the value of a decimal in units. -/
def Decimal.unitsDen (decimal : Decimal) : Nat := 10 ^ (-decimal.exponent).toNat

namespace Binary64

/-- The nearest number depends on the value of a fraction only. -/
theorem nearest_congr (negative : Bool) {num den num' den' : Nat} (hden : 0 < den) (hden' : 0 < den')
    (heq : num * den' = num' * den) : nearest negative num den = nearest negative num' den' := by
  simp only [nearest, nearestRank_congr hden hden' heq]

theorem nearest_eq_number (negative : Bool) {num den : Nat} {rank : Fin (infiniteRank + 1)}
    (hrank : nearestRank num den = rank.val) : nearest negative num den = .number negative rank := by
  simp only [nearest, hrank]

/-- A decimal with an exponent above 400 is beyond the format. -/
theorem nearestRank_of_large_exponent {coefficient exponent : Nat} (hcoefficient : coefficient ≠ 0)
    (hexponent : 400 < exponent) :
    nearestRank (coefficient * 10 ^ exponent * unitsPerOne) 1 = infiniteRank := by
  apply Nat.le_antisymm (Nat.le_of_lt_succ (nearestRank_lt _ _))
  apply le_nearestRank Nat.one_pos le_rfl
  rw [units_infiniteRank, Nat.mul_one]
  apply Nat.mul_le_mul_right
  calc 2 ^ 1024 ≤ 2 ^ (3 * exponent) := Nat.pow_le_pow_right (by decide) (by omega)
    _ = 8 ^ exponent := pow_mul 2 3 exponent
    _ ≤ 10 ^ exponent := Nat.pow_le_pow_left (by decide) exponent
    _ ≤ coefficient * 10 ^ exponent := Nat.le_mul_of_pos_left _ (Nat.pos_of_ne_zero hcoefficient)

/-- A decimal far below the smallest positive number is rounded to zero. -/
theorem nearestRank_of_small_exponent {coefficient places : Nat} (hplaces : 400 + coefficient.log2 < places) :
    nearestRank (coefficient * unitsPerOne) (10 ^ places) = 0 := by
  apply Nat.le_zero.mp
  rw [nearestRank_le_iff (Nat.pow_pos (by decide)) (by decide), units_zero, units_one, Nat.zero_add, Nat.one_mul]
  left
  calc 2 * (coefficient * unitsPerOne) < 2 * (2 ^ (coefficient.log2 + 1) * unitsPerOne) := by
        have hscaled := Nat.mul_lt_mul_of_pos_right (Nat.lt_log2_self (n := coefficient)) unitsPerOne_pos
        omega
    _ = 2 ^ (coefficient.log2 + 1076) := by
        rw [unitsPerOne_eq, ← pow_add, ← pow_succ']
    _ ≤ 2 ^ (3 * places) := Nat.pow_le_pow_right (by decide) (by omega)
    _ = 8 ^ places := pow_mul 2 3 places
    _ ≤ 10 ^ places := Nat.pow_le_pow_left (by decide) places

/-- Reading a decimal rounds its exact value, whatever its length; the shortcuts for far exponents change nothing. -/
theorem ofDecimal_eq_nearest (negative : Bool) (decimal : Decimal) :
    ofDecimal negative decimal = nearest negative decimal.unitsNum decimal.unitsDen := by
  obtain ⟨coefficient, exponent⟩ := decimal
  unfold ofDecimal Decimal.unitsNum Decimal.unitsDen
  dsimp only
  by_cases hzero : coefficient = 0
  · rw [if_pos hzero]
    symm
    apply nearest_eq_number
    rw [hzero, Nat.zero_mul, Nat.zero_mul]
    exact Nat.le_zero.mp (nearestRank_le (Nat.pow_pos (by decide)) (Nat.zero_le _) (Nat.zero_le _))
  rw [if_neg hzero]
  rcases Int.lt_or_le exponent 0 with hnegative | hpositive
  · -- A negative exponent stands in the denominator only.
    have htoNat : exponent.toNat = 0 := by omega
    have hplaces : (-exponent).toNat = exponent.natAbs := by omega
    rw [htoNat, hplaces, pow_zero, Nat.mul_one, if_neg (by omega)]
    by_cases hsmall : exponent < -(400 + (coefficient.log2 : Int))
    · rw [if_pos hsmall]
      symm
      apply nearest_eq_number
      exact nearestRank_of_small_exponent (by omega)
    · rw [if_neg hsmall, if_pos hnegative]
      rfl
  · have htoNat : exponent.toNat = exponent.natAbs := by omega
    have hplaces : (-exponent).toNat = 0 := by omega
    rw [htoNat, hplaces, pow_zero]
    by_cases hlarge : exponent > 400
    · rw [if_pos hlarge]
      symm
      apply nearest_eq_number
      exact nearestRank_of_large_exponent hzero (by omega)
    · rw [if_neg hlarge, if_neg (by omega), if_neg (by omega)]
      rfl

/-- A cut is only made where it is read back. -/
theorem readsBack_of_cutAt {tie : Tie} {readsBack : Nat → Bool} {expansion places coefficient : Nat}
    (hcut : cutAt tie readsBack expansion places = some coefficient) :
    readsBack (coefficient * 10 ^ places) = true := by
  have hstep : Nat.pow 10 places = 10 ^ places := rfl
  simp only [cutAt, hstep] at hcut
  generalize expansion / 10 ^ places = below at hcut
  cases hlow : readsBack (below * 10 ^ places) <;>
    cases hhigh : readsBack ((below + 1) * 10 ^ places) <;> simp only [hlow, hhigh] at hcut
  · cases hcut
  · cases hcut
    exact hhigh
  · cases hcut
    exact hlow
  · have hnear : coefficient = below ∨ coefficient = below + 1 := by
      split at hcut <;> [skip; split at hcut <;> [skip; split at hcut]] <;> cases hcut <;> omega
    rcases hnear with rfl | rfl
    · exact hlow
    · exact hhigh

/-- The uncut expansion is read back. -/
theorem readsAs_expansion {rank : Nat} (hrank : rank ≤ infiniteRank) :
    readsAs rank (units rank * Nat.pow 5 1074) = true := by
  rw [readsAs, beq_iff_eq]
  calc nearestRank (units rank * Nat.pow 5 1074) (Nat.pow 5 1074)
      = nearestRank (units rank) 1 :=
        nearestRank_congr (Nat.pow_pos (by decide)) Nat.one_pos (Nat.mul_one _)
    _ = rank := nearestRank_units hrank

end Binary64

end ExperimentCharts
