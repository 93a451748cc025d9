import ExperimentCharts.Binary64.Whole
import ExperimentCharts.Proofs.Binary64.Exact
import ExperimentCharts.Proofs.Binary64.Order
import Mathlib.Algebra.Order.Archimedean.Real.Basic
import Mathlib.Algebra.Order.Floor.Ring
import Mathlib.Tactic.Linarith

namespace ExperimentCharts.Binary64

/-- The exact value. That of infinity is the power of two whose rank it has, and what is not a number counts
    as zero. -/
noncomputable def toReal : Binary64 → ℝ
  | .nan _ => 0
  | .number negative rank => signedUnits negative rank.val / unitsPerOne

variable {x y z : Binary64}

theorem unitsPerOne_cast_pos : (0 : ℝ) < unitsPerOne := Nat.cast_pos.mpr unitsPerOne_pos

/-- What is not not-a-number has a sign and a rank. -/
theorem exists_number_of_isNaN (hx : x.isNaN = false) : ∃ negative rank, x = .number negative rank := by
  cases x with
  | nan negative => cases hx
  | number negative rank => exact ⟨negative, rank, rfl⟩

theorem isNaN_of_isFinite (hx : x.isFinite = true) : x.isNaN = false := by
  cases x with
  | nan negative => cases hx
  | number negative rank => rfl

/-- The value of a number is its signed amount of units; infinity counts as the power of two whose rank it has. -/
theorem toReal_number (negative : Bool) (rank : Fin (infiniteRank + 1)) :
    (number negative rank).toReal = (signedUnits negative rank.val : ℝ) / unitsPerOne := rfl

theorem toReal_number_false (rank : Fin (infiniteRank + 1)) :
    (number false rank).toReal = (units rank.val : ℝ) / unitsPerOne := by
  rw [toReal_number, signedUnits, if_neg Bool.false_ne_true, Int.cast_natCast]

/-- A sign has no part in the distance from zero. -/
theorem abs_toReal_number (negative : Bool) (rank : Fin (infiniteRank + 1)) :
    |(number negative rank).toReal| = units rank.val / unitsPerOne := by
  rw [toReal_number, abs_div, Nat.abs_cast]
  cases negative with
  | false => rw [signedUnits, if_neg Bool.false_ne_true, Int.cast_natCast, Nat.abs_cast]
  | true => rw [signedUnits, if_pos rfl, Int.cast_neg, Int.cast_natCast, abs_neg, Nat.abs_cast]

/-- Comparing with an amount of units is comparing whole numbers. -/
theorem toReal_number_le_iff (negative : Bool) (rank : Fin (infiniteRank + 1)) (amount : Int) :
    (number negative rank).toReal ≤ amount / unitsPerOne ↔ signedUnits negative rank.val ≤ amount := by
  rw [toReal_number, div_le_div_iff_of_pos_right unitsPerOne_cast_pos, Int.cast_le]

/-- Negation negates the value, also of the zeros and the infinities. -/
theorem toReal_neg (x : Binary64) : (-x).toReal = -x.toReal := by
  cases x with
  | nan negative => exact neg_zero.symm
  | number negative rank =>
    have hsigned : signedUnits (!negative) rank.val = -signedUnits negative rank.val := by
      cases negative <;> simp [signedUnits]
    change toReal (number (!negative) rank) = _
    rw [toReal_number, toReal_number, hsigned, Int.cast_neg, neg_div]

/-- Whole numbers of at most 53 bits have their own value. -/
theorem toReal_natCast {n : Nat} (hn : n ≤ 2 ^ 53) : (n : Binary64).toReal = n := by
  obtain ⟨rank, hnumber, -, hunits⟩ := exists_natCast_eq hn
  rw [hnumber, toReal_number_false, hunits, Nat.cast_mul]
  exact mul_div_cancel_right₀ _ unitsPerOne_cast_pos.ne'

theorem isFinite_natCast {n : Nat} (hn : n ≤ 2 ^ 53) : (n : Binary64).isFinite = true := by
  obtain ⟨rank, hnumber, hrank, -⟩ := exists_natCast_eq hn
  rw [hnumber, isFinite_number]
  exact hrank.ne

theorem toReal_zero : (0 : Binary64).toReal = 0 := by
  have hzero := @toReal_natCast 0 (by decide)
  rwa [Nat.cast_zero] at hzero

theorem toReal_one : (1 : Binary64).toReal = 1 := by
  have hone := @toReal_natCast 1 (by decide)
  rwa [Nat.cast_one] at hone

/-- Whole numbers of 53 bits have a place in the format after any number of halvings down to the unit. -/
theorem exists_toReal_eq {m : Int} {halvings : Nat} (hm : m.natAbs ≤ 2 ^ 53) (hhalvings : halvings ≤ 1074) :
    ∃ z : Binary64, z.isFinite = true ∧ z.toReal = m / 2 ^ halvings := by
  obtain ⟨rank, hunits⟩ := exists_units_eq (1074 - halvings) (show m.natAbs ≤ 2 * ranksPerBinade from hm)
  have hpower := pow_sub_mul_pow 2 hhalvings
  rw [← unitsPerOne_eq] at hpower
  have hscaled : units rank * 2 ^ halvings = m.natAbs * unitsPerOne := by
    rw [hunits, Nat.mul_assoc, hpower]
  have hrank : rank ≤ 0x43F0000000000000 := by
    rw [← units_strictMono.le_iff_le, units_rankOfTwoPow]
    calc units rank ≤ units rank * 2 ^ halvings := Nat.le_mul_of_pos_right _ (Nat.two_pow_pos _)
      _ = m.natAbs * unitsPerOne := hscaled
      _ ≤ 2 ^ 64 * unitsPerOne := Nat.mul_le_mul_right _ (by omega)
  have hinfinite : 0x43F0000000000000 < infiniteRank := by decide
  refine ⟨.number (decide (m < 0)) ⟨rank, by omega⟩, (isFinite_number _ _).mpr (by simp only; omega), ?_⟩
  have hsigned : signedUnits (decide (m < 0)) rank * 2 ^ halvings = m * unitsPerOne := by
    zify at hscaled
    unfold signedUnits
    split <;> rename_i hsign
    · rw [abs_of_neg (of_decide_eq_true hsign)] at hscaled
      linarith
    · rw [abs_of_nonneg (not_lt.mp (by simpa using hsign))] at hscaled
      exact hscaled
  rw [toReal_number, div_eq_div_iff unitsPerOne_cast_pos.ne' (by positivity)]
  exact_mod_cast hsigned

/-- Amounts of units compare as signed ranks do. -/
theorem signedUnits_le_iff (s t : Bool) (a b : Nat) :
    signedUnits s a ≤ signedUnits t b ↔ (if s then -(a : Int) else a) ≤ (if t then -(b : Int) else b) := by
  have hmono := units_strictMono.le_iff_le (a := a) (b := b)
  have hmono' := units_strictMono.le_iff_le (a := b) (b := a)
  have hzero := units_strictMono.le_iff_le (a := a) (b := 0)
  have hzero' := units_strictMono.le_iff_le (a := b) (b := 0)
  rw [units_zero] at hzero hzero'
  cases s <;> cases t <;> simp only [signedUnits, if_true, Bool.false_eq_true, if_false] <;> omega

/-- Numbers compare as their values do. Infinities are numbers here; only not-a-number is excluded. -/
theorem le_iff_toReal (hx : x.isNaN = false) (hy : y.isNaN = false) :
    x ≤ y ↔ x.toReal ≤ y.toReal := by
  obtain ⟨s, a, rfl⟩ := exists_number_of_isNaN hx
  obtain ⟨t, b, rfl⟩ := exists_number_of_isNaN hy
  rw [le_iff_position rfl rfl, ← signedUnits_le_iff, ← toReal_number_le_iff, toReal_number t]

theorem lt_iff_toReal (hx : x.isNaN = false) (hy : y.isNaN = false) :
    x < y ↔ x.toReal < y.toReal := by
  obtain ⟨p, hp⟩ := exists_position hx
  obtain ⟨q, hq⟩ := exists_position hy
  rw [lt_iff_position hp hq, ← not_le, ← not_le, ← le_iff_position hq hp, le_iff_toReal hy hx]

theorem pos_iff_toReal (hx : x.isNaN = false) : 0 < x ↔ 0 < x.toReal := by
  rw [lt_iff_toReal rfl hx, toReal_zero]

/-- A positive number has a positive rank and no sign. -/
theorem exists_number_of_pos (hx : 0 < x) : ∃ rank, x = .number false rank ∧ 0 < rank.val := by
  rw [zero_eq] at hx
  cases x with
  | nan negative => exact absurd hx Bool.false_ne_true
  | number negative rank =>
    rw [zero, lt_iff_position rfl rfl] at hx
    cases negative with
    | false => exact ⟨rank, rfl, by simpa using hx⟩
    | true => simp at hx; omega

theorem eq_infinity_or_isFinite (hx : 0 < x) : x = infinity false ∨ x.isFinite = true := by
  obtain ⟨rank, rfl, -⟩ := exists_number_of_pos hx
  by_cases hrank : rank.val = infiniteRank
  · exact .inl (congrArg (number false) (Fin.ext hrank))
  · exact .inr ((isFinite_number false rank).mpr hrank)

/-- A positive number is one unit or more. -/
theorem inv_unitsPerOne_le_toReal (hx : 0 < x) : (unitsPerOne : ℝ)⁻¹ ≤ x.toReal := by
  obtain ⟨rank, rfl, hrank⟩ := exists_number_of_pos hx
  have hunits : (1 : ℝ) ≤ units rank.val := Nat.one_le_cast.mpr (units_pos hrank)
  rw [toReal_number_false, inv_eq_one_div]
  exact div_le_div_of_nonneg_right hunits unitsPerOne_cast_pos.le

/-- A positive number has a positive value, in the smallest range too. -/
theorem toReal_pos (hx : 0 < x) : 0 < x.toReal :=
  (inv_pos.mpr unitsPerOne_cast_pos).trans_le (inv_unitsPerOne_le_toReal hx)

/-- Finite values lie below that of infinity. -/
theorem toReal_lt_infinity (hx : x.isFinite = true) : x.toReal < (infinity false).toReal := by
  obtain ⟨negative, rank, rfl⟩ := exists_number_of_isNaN (isNaN_of_isFinite hx)
  rw [isFinite_number] at hx
  have hrank := rank.isLt
  rw [← lt_iff_toReal rfl rfl, lt_iff_position rfl rfl]
  cases negative <;> simp only [Bool.false_eq_true, if_true, if_false] <;> omega

theorem ofUnits_neg (zeroNegative : Bool) (amount : Int) :
    ofUnits (!zeroNegative) (-amount) = -ofUnits zeroNegative amount := by
  unfold ofUnits
  by_cases hzero : amount = 0
  · rw [if_pos (by omega), if_pos hzero]
    rfl
  · rw [if_neg (by omega), if_neg hzero, Int.natAbs_neg, show decide (-amount < 0) = !decide (amount < 0) by grind]
    rfl

/-- An amount is never rounded down past a number of the format. -/
theorem le_toReal_ofUnits (hx : x.isNaN = false) (zeroNegative : Bool) {amount : Int}
    (hle : x.toReal ≤ amount / unitsPerOne) : x.toReal ≤ (ofUnits zeroNegative amount).toReal := by
  obtain ⟨s, a, rfl⟩ := exists_number_of_isNaN hx
  rw [toReal_number_le_iff] at hle
  have ha : a.val ≤ infiniteRank := Nat.le_of_lt_succ a.isLt
  unfold ofUnits
  by_cases hzero : amount = 0
  · rw [if_pos hzero, zero, toReal_number _ ⟨0, _⟩, toReal_number_le_iff]
    cases zeroNegative <;> simpa [signedUnits, units_zero, hzero] using hle
  · rw [if_neg hzero, nearest, toReal_number _ ⟨nearestRank _ _, _⟩, toReal_number_le_iff, signedUnits_le_iff]
    by_cases hnegative : amount < 0
    · -- Only a negative number lies below, and it has the greater magnitude.
      cases s with
      | false => exact absurd (show (0 : Int) ≤ signedUnits false a.val by simp [signedUnits]) (by omega)
      | true =>
        have hmagnitude : amount.natAbs ≤ units a.val * 1 := by
          simp only [signedUnits, if_true] at hle
          omega
        have hrank := nearestRank_le Nat.one_pos ha hmagnitude
        simp only [hnegative, decide_true, if_true]
        omega
    · cases s with
      | false =>
        have hmagnitude : units a.val * 1 ≤ amount.natAbs := by
          simp only [signedUnits, Bool.false_eq_true, if_false] at hle
          omega
        have hrank := le_nearestRank Nat.one_pos ha hmagnitude
        simp only [hnegative, decide_false, Bool.false_eq_true, if_false]
        omega
      | true =>
        simp only [hnegative, decide_false, Bool.false_eq_true, if_false, if_true]
        omega

/-- An amount is never rounded up past a number of the format. -/
theorem toReal_ofUnits_le (hx : x.isNaN = false) (zeroNegative : Bool) {amount : Int}
    (hle : (amount : ℝ) / unitsPerOne ≤ x.toReal) : (ofUnits zeroNegative amount).toReal ≤ x.toReal := by
  have hnegated : (-x).isNaN = false := by
    obtain ⟨s, a, rfl⟩ := exists_number_of_isNaN hx
    rfl
  have hbelow : (-x).toReal ≤ ((-amount : Int) : ℝ) / unitsPerOne := by
    rw [toReal_neg, Int.cast_neg, neg_div]
    exact neg_le_neg hle
  have hrounded := le_toReal_ofUnits hnegated (!zeroNegative) hbelow
  rw [ofUnits_neg, toReal_neg, toReal_neg] at hrounded
  exact neg_le_neg_iff.mp hrounded

/-- Amounts up to 2⁶⁴ are rounded to finite numbers. -/
theorem isFinite_ofUnits (zeroNegative : Bool) {amount : Int} (hsmall : |(amount : ℝ) / unitsPerOne| ≤ 2 ^ 64) :
    (ofUnits zeroNegative amount).isFinite = true := by
  have hamount : amount.natAbs ≤ 2 ^ 64 * unitsPerOne := by
    rw [abs_div, Nat.abs_cast, div_le_iff₀ unitsPerOne_cast_pos, ← Int.cast_abs, ← Nat.cast_natAbs] at hsmall
    exact_mod_cast hsmall
  unfold ofUnits
  split
  · exact isFinite_zero zeroNegative
  · apply isFinite_nearest _ Nat.one_pos (show 0x43F0000000000000 < infiniteRank by decide)
    rwa [units_rankOfTwoPow, Nat.mul_one]

/-- A sum of finite numbers is the exact sum in units, rounded once. -/
theorem exists_add_eq_ofUnits (hx : x.isFinite = true) (hy : y.isFinite = true) :
    ∃ zeroNegative amount, x + y = ofUnits zeroNegative amount ∧
      (amount : ℝ) / unitsPerOne = x.toReal + y.toReal := by
  obtain ⟨s, a, rfl⟩ := exists_number_of_isNaN (isNaN_of_isFinite hx)
  obtain ⟨t, b, rfl⟩ := exists_number_of_isNaN (isNaN_of_isFinite hy)
  rw [isFinite_number] at hx hy
  refine ⟨s && t, signedUnits s a.val + signedUnits t b.val, ?_, ?_⟩
  · change add _ _ = _
    rw [add, if_neg hx, if_neg hy]
  · rw [toReal_number, toReal_number, Int.cast_add, add_div]

/-- A sum is never rounded past a number of the format from above. The number may be infinite. -/
theorem le_toReal_add (hx : x.isFinite = true) (hy : y.isFinite = true) (hz : z.isNaN = false)
    (hle : z.toReal ≤ x.toReal + y.toReal) : z.toReal ≤ (x + y).toReal := by
  obtain ⟨zeroNegative, amount, hsum, hamount⟩ := exists_add_eq_ofUnits hx hy
  rw [hsum]
  rw [← hamount] at hle
  exact le_toReal_ofUnits hz zeroNegative hle

theorem toReal_add_le (hx : x.isFinite = true) (hy : y.isFinite = true) (hz : z.isNaN = false)
    (hle : x.toReal + y.toReal ≤ z.toReal) : (x + y).toReal ≤ z.toReal := by
  obtain ⟨zeroNegative, amount, hsum, hamount⟩ := exists_add_eq_ofUnits hx hy
  rw [hsum]
  rw [← hamount] at hle
  exact toReal_ofUnits_le hz zeroNegative hle

/-- A sum up to 2⁶⁴ is finite, whatever its two parts are. -/
theorem isFinite_add (hx : x.isFinite = true) (hy : y.isFinite = true)
    (hsmall : |x.toReal + y.toReal| ≤ 2 ^ 64) : (x + y).isFinite = true := by
  obtain ⟨zeroNegative, amount, hsum, hamount⟩ := exists_add_eq_ofUnits hx hy
  rw [hsum]
  rw [← hamount] at hsmall
  exact isFinite_ofUnits zeroNegative hsmall

/-- Subtraction is addition of the negation. -/
theorem sub_eq_add_neg_of_isFinite (hx : x.isFinite = true) (hy : y.isFinite = true) : x - y = x + -y := by
  obtain ⟨s, a, rfl⟩ := exists_number_of_isNaN (isNaN_of_isFinite hx)
  obtain ⟨t, b, rfl⟩ := exists_number_of_isNaN (isNaN_of_isFinite hy)
  rfl

/-- The floor of a finite number is that of its value, cut to the range of the integer. -/
theorem floor_eq_cut (hx : x.isFinite = true) (range : IntRange) : x.floor range = range.cut ⌊x.toReal⌋ := by
  obtain ⟨negative, rank, rfl⟩ := exists_number_of_isNaN (isNaN_of_isFinite hx)
  rw [isFinite_number] at hx
  rw [floor, toInt, if_neg hx, floorUnits, Int.fdiv_eq_ediv_of_nonneg _ (Int.natCast_nonneg _), toReal_number,
    Int.floor_div_natCast, Int.floor_intCast]

theorem ceil_eq_cut (hx : x.isFinite = true) (range : IntRange) : x.ceil range = range.cut ⌈x.toReal⌉ := by
  obtain ⟨negative, rank, rfl⟩ := exists_number_of_isNaN (isNaN_of_isFinite hx)
  rw [isFinite_number] at hx
  rw [ceil, toInt, if_neg hx, ceilUnits, Int.fdiv_eq_ediv_of_nonneg _ (Int.natCast_nonneg _), toReal_number,
    ← neg_neg ⌈_⌉, ← Int.floor_neg, ← neg_div, ← Int.cast_neg, Int.floor_div_natCast, Int.floor_intCast]

section RoundedSums

variable {k : Int} (hx : x.isFinite = true) (hy : y.isFinite = true) (hk : k.natAbs ≤ 2 ^ 19)
  (hsmall : |x.toReal + y.toReal| ≤ 2 ^ 19)

include hx hy

/-- Fractions over powers of two are numbers of the format, so that no sum is rounded past them. -/
theorem le_toReal_add_of_dyadic {m : Int} {halvings : Nat} (hm : m.natAbs ≤ 2 ^ 53) (hhalvings : halvings ≤ 1074)
    (hle : (m : ℝ) / 2 ^ halvings ≤ x.toReal + y.toReal) : (m : ℝ) / 2 ^ halvings ≤ (x + y).toReal := by
  obtain ⟨z, hz, hvalue⟩ := exists_toReal_eq hm hhalvings
  rw [← hvalue] at hle ⊢
  exact le_toReal_add hx hy (isNaN_of_isFinite hz) hle

theorem toReal_add_le_of_dyadic {m : Int} {halvings : Nat} (hm : m.natAbs ≤ 2 ^ 53) (hhalvings : halvings ≤ 1074)
    (hle : x.toReal + y.toReal ≤ (m : ℝ) / 2 ^ halvings) : (x + y).toReal ≤ (m : ℝ) / 2 ^ halvings := by
  obtain ⟨z, hz, hvalue⟩ := exists_toReal_eq hm hhalvings
  rw [← hvalue] at hle ⊢
  exact toReal_add_le hx hy (isNaN_of_isFinite hz) hle

include hk hsmall

/-- A rounded sum does not fall below an integer that the exact sum reaches. -/
theorem le_floor_add (hle : k ≤ x.toReal + y.toReal) : k ≤ (x + y).floor .signed32 := by
  have hrounded := le_toReal_add_of_dyadic hx hy (show k.natAbs ≤ 2 ^ 53 by omega) (Nat.zero_le 1074)
    (by simpa using hle)
  have hfloor : k ≤ ⌊(x + y).toReal⌋ := Int.le_floor.mpr (by simpa using hrounded)
  rw [floor_eq_cut (isFinite_add hx hy (hsmall.trans (by norm_num)))]
  simp only [IntRange.cut, IntRange.signed32]
  omega

/-- A rounded sum reaches an integer only if the exact sum comes close to it. -/
theorem floor_add_lt (hle : x.toReal + y.toReal ≤ k - 1 / 2 ^ 33) : (x + y).floor .signed32 < k := by
  have hbelow : ((k * 2 ^ 33 - 1 : Int) : ℝ) / 2 ^ 33 = k - 1 / 2 ^ 33 := by push_cast; ring
  have hrounded := toReal_add_le_of_dyadic hx hy (show (k * 2 ^ 33 - 1).natAbs ≤ 2 ^ 53 by omega)
    (show 33 ≤ 1074 by decide) (by rwa [hbelow])
  have hfloor : ⌊(x + y).toReal⌋ < k := Int.floor_lt.mpr (by linarith)
  rw [floor_eq_cut (isFinite_add hx hy (hsmall.trans (by norm_num)))]
  simp only [IntRange.cut, IntRange.signed32]
  omega

/-- A sum that is at most a small integer has its ceiling there at most; rounding cannot lift it over the integer. -/
theorem ceil_add_le (hle : x.toReal + y.toReal ≤ k) : (x + y).ceil .signed32 ≤ k := by
  have hrounded := toReal_add_le_of_dyadic hx hy (show k.natAbs ≤ 2 ^ 53 by omega) (Nat.zero_le 1074)
    (by simpa using hle)
  have hceil : ⌈(x + y).toReal⌉ ≤ k := Int.ceil_le.mpr (by simpa using hrounded)
  rw [ceil_eq_cut (isFinite_add hx hy (hsmall.trans (by norm_num)))]
  simp only [IntRange.cut, IntRange.signed32]
  omega

/-- A sum clearly above a small integer has a greater ceiling. -/
theorem lt_ceil_add (hle : k + 1 / 2 ^ 33 ≤ x.toReal + y.toReal) : k < (x + y).ceil .signed32 := by
  have habove : ((k * 2 ^ 33 + 1 : Int) : ℝ) / 2 ^ 33 = k + 1 / 2 ^ 33 := by push_cast; ring
  have hrounded := le_toReal_add_of_dyadic hx hy (show (k * 2 ^ 33 + 1).natAbs ≤ 2 ^ 53 by omega)
    (show 33 ≤ 1074 by decide) (by rwa [habove])
  have hceil : k < ⌈(x + y).toReal⌉ := Int.lt_ceil.mpr (by linarith)
  rw [ceil_eq_cut (isFinite_add hx hy (hsmall.trans (by norm_num)))]
  simp only [IntRange.cut, IntRange.signed32]
  omega

end RoundedSums

end ExperimentCharts.Binary64
