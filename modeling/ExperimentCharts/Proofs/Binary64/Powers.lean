import ExperimentCharts.Proofs.Binary64.Accuracy
import Mathlib.Algebra.Order.Ring.Pow
import Mathlib.Tactic.Linarith
import Mathlib.Tactic.Rify

namespace ExperimentCharts.Binary64

variable {base result : Binary64} {bits exponent : Nat}

/-- The result after one more bit. -/
theorem one_le_next (hbase : 1 ≤ base) (hresult : 1 ≤ result) (exponent : Nat) :
    1 ≤ (if exponent % 2 = 1 then result * base else result) := by
  split
  · exact one_le_mul hresult hbase
  · exact hresult

/-- One step of repeated squaring raises the result by one rounding at most, and by none if the bit is not set. -/
theorem toReal_next_le (hbase : 1 ≤ base) (hresult : 1 ≤ result) (exponent : Nat) :
    (if exponent % 2 = 1 then result * base else result).toReal ≤
      result.toReal * base.toReal ^ (exponent % 2) * (1 + 1 / 2 ^ 53) ^ (exponent % 2) := by
  rcases Nat.mod_two_eq_zero_or_one exponent with hparity | hparity
  · simp [hparity]
  · rw [if_pos hparity, hparity, pow_one, pow_one, mul_comm]
    exact toReal_mul_le hresult hbase

/-- It lowers a finite result by one rounding at most. -/
theorem le_toReal_next (hbase : 1 ≤ base) (hresult : 1 ≤ result) (exponent : Nat)
    (hfinite : (if exponent % 2 = 1 then result * base else result).isFinite = true) :
    result.toReal * base.toReal ^ (exponent % 2) * (1 - 1 / 2 ^ 53) ^ (exponent % 2) ≤
      (if exponent % 2 = 1 then result * base else result).toReal := by
  rcases Nat.mod_two_eq_zero_or_one exponent with hparity | hparity
  · simp [hparity]
  · rw [if_pos hparity] at hfinite ⊢
    rw [hparity, pow_one, pow_one, mul_comm]
    exact le_toReal_mul hresult hbase hfinite

/-- Powers of numbers from one up stay from one up. -/
theorem one_le_powerBits (hbase : 1 ≤ base) (hresult : 1 ≤ result) :
    1 ≤ powerBits bits exponent base result := by
  induction bits generalizing exponent base result with
  | zero => exact hresult
  | succ bits ih => exact ih (one_le_mul hbase hbase) (one_le_next hbase hresult exponent)

theorem powerBits_infinity (hbase : 1 ≤ base) :
    powerBits bits exponent base (infinity false) = infinity false := by
  induction bits generalizing exponent base with
  | zero => rfl
  | succ bits ih =>
    rw [powerBits, mul_eq_infinity one_le_infinity hbase (.inl rfl), ite_self]
    exact ih (one_le_mul hbase hbase)

/-- An infinite square makes the power infinite as soon as a later bit is set. -/
theorem powerBits_infinity_base (hresult : 1 ≤ result) (hpositive : 0 < exponent) (hbits : exponent < 2 ^ bits) :
    powerBits bits exponent (infinity false) result = infinity false := by
  induction bits generalizing exponent result with
  | zero => omega
  | succ bits ih =>
    rw [Nat.pow_succ] at hbits
    rw [powerBits, mul_eq_infinity one_le_infinity one_le_infinity (.inl rfl)]
    split
    · rw [mul_eq_infinity hresult one_le_infinity (.inr rfl)]
      exact powerBits_infinity one_le_infinity
    · exact ih hresult (by omega) (by omega)

/-- A finite power had a finite result at every step. -/
theorem isFinite_result (hbase : 1 ≤ base) (hresult : 1 ≤ result)
    (hfinite : (powerBits bits exponent base result).isFinite = true) : result.isFinite = true := by
  refine (eq_infinity_or_isFinite (pos_of_one_le hresult)).resolve_left ?_
  rintro rfl
  rw [powerBits_infinity hbase] at hfinite
  exact absurd hfinite (by decide)

/-- It also had a finite base, as long as bits were left. -/
theorem isFinite_base (hbase : 1 ≤ base) (hresult : 1 ≤ result) (hpositive : 0 < exponent)
    (hbits : exponent < 2 ^ bits) (hfinite : (powerBits bits exponent base result).isFinite = true) :
    base.isFinite = true := by
  refine (eq_infinity_or_isFinite (pos_of_one_le hbase)).resolve_left ?_
  rintro rfl
  rw [powerBits_infinity_base hresult hpositive hbits] at hfinite
  exact absurd hfinite (by decide)

/-- A power of exponent `n` is raised by `2 * n` roundings at most. Each squaring doubles the roundings of the base,
    and halves the exponent that is left. -/
theorem toReal_powerBits_le (hbase : 1 ≤ base) (hresult : 1 ≤ result) (hbits : exponent < 2 ^ bits) :
    (powerBits bits exponent base result).toReal ≤
      result.toReal * base.toReal ^ exponent * (1 + 1 / 2 ^ 53) ^ (2 * exponent) := by
  induction bits generalizing exponent base result with
  | zero =>
    have hzero : exponent = 0 := by omega
    simp [powerBits, hzero]
  | succ bits ih =>
    rw [Nat.pow_succ] at hbits
    have hbase1 := one_le_toReal hbase
    have hresult1 := one_le_toReal hresult
    have hsquare1 := one_le_toReal (one_le_mul hbase hbase)
    have hsquare := toReal_mul_le hbase hbase
    have hnext1 := one_le_next hbase hresult exponent
    have hnext := toReal_next_le hbase hresult exponent
    have hparity := Nat.mod_add_div exponent 2
    have hgrow : (1 : ℝ) ≤ 1 + 1 / 2 ^ 53 := by norm_num
    rw [powerBits]
    generalize (1 : ℝ) + 1 / 2 ^ 53 = grow at *
    generalize (if exponent % 2 = 1 then result * base else result) = next at *
    calc (powerBits bits (exponent / 2) (base * base) next).toReal
        ≤ next.toReal * (base * base).toReal ^ (exponent / 2) * grow ^ (2 * (exponent / 2)) :=
          ih (one_le_mul hbase hbase) hnext1 (by omega)
      _ ≤ result.toReal * base.toReal ^ (exponent % 2) * grow ^ (exponent % 2) *
            (grow * (base.toReal * base.toReal)) ^ (exponent / 2) * grow ^ (2 * (exponent / 2)) := by
          gcongr
      _ = result.toReal * base.toReal ^ (exponent % 2 + 2 * (exponent / 2)) *
            grow ^ (exponent % 2 + 3 * (exponent / 2)) := by ring
      _ ≤ result.toReal * base.toReal ^ exponent * grow ^ (2 * exponent) := by
          rw [hparity]
          gcongr
          omega

/-- A power that is finite comes from finite products only. -/
theorem le_toReal_powerBits (hbase : 1 ≤ base) (hresult : 1 ≤ result) (hbits : exponent < 2 ^ bits)
    (hfinite : (powerBits bits exponent base result).isFinite = true) :
    result.toReal * base.toReal ^ exponent * (1 - 1 / 2 ^ 53) ^ (2 * exponent) ≤
      (powerBits bits exponent base result).toReal := by
  induction bits generalizing exponent base result with
  | zero =>
    have hzero : exponent = 0 := by omega
    simp [powerBits, hzero]
  | succ bits ih =>
    rw [Nat.pow_succ] at hbits
    rw [powerBits] at hfinite ⊢
    have hbase1 := one_le_toReal hbase
    have hresult1 := one_le_toReal hresult
    have hsquare1 := one_le_mul hbase hbase
    have hsquare := le_toReal_mul hbase hbase
    have hnext1 := one_le_next hbase hresult exponent
    have hnext := le_toReal_next hbase hresult exponent (isFinite_result hsquare1 hnext1 hfinite)
    have hparity := Nat.mod_add_div exponent 2
    have hshrink : (0 : ℝ) ≤ 1 - 1 / 2 ^ 53 := by norm_num
    have hshrink1 : (1 : ℝ) - 1 / 2 ^ 53 ≤ 1 := by norm_num
    generalize (1 : ℝ) - 1 / 2 ^ 53 = shrink at *
    generalize (if exponent % 2 = 1 then result * base else result) = next at *
    have hsquares : (shrink * (base.toReal * base.toReal)) ^ (exponent / 2) ≤
        (base * base).toReal ^ (exponent / 2) := by
      rcases Nat.eq_zero_or_pos (exponent / 2) with hzero | hpositive
      · rw [hzero, pow_zero, pow_zero]
      · gcongr
        exact hsquare (isFinite_base hsquare1 hnext1 hpositive (by omega) hfinite)
    calc result.toReal * base.toReal ^ exponent * shrink ^ (2 * exponent)
        ≤ result.toReal * base.toReal ^ (exponent % 2 + 2 * (exponent / 2)) *
            shrink ^ (exponent % 2 + 3 * (exponent / 2)) := by
          rw [hparity]
          apply mul_le_mul_of_nonneg_left _ (by positivity)
          exact pow_le_pow_of_le_one hshrink hshrink1 (by omega)
      _ = result.toReal * base.toReal ^ (exponent % 2) * shrink ^ (exponent % 2) *
            (shrink * (base.toReal * base.toReal)) ^ (exponent / 2) * shrink ^ (2 * (exponent / 2)) := by ring
      _ ≤ next.toReal * (base * base).toReal ^ (exponent / 2) * shrink ^ (2 * (exponent / 2)) := by
          gcongr
          linarith [one_le_toReal hnext1]
      _ ≤ (powerBits bits (exponent / 2) (base * base) next).toReal := ih hsquare1 hnext1 (by omega) hfinite

/-- Up to 2¹² roundings down lose a part in 2⁴¹ at most. -/
theorem le_one_sub_pow {count : Nat} (hcount : count ≤ 2 ^ 12) :
    1 - 1 / 2 ^ 41 ≤ (1 - 1 / 2 ^ 53 : ℝ) ^ count := by
  have hbernoulli := one_add_mul_le_pow (show (-2 : ℝ) ≤ -(1 / 2 ^ 53) by norm_num) count
  have hcount' : (count : ℝ) ≤ 2 ^ 12 := by exact_mod_cast hcount
  rw [← sub_eq_add_neg] at hbernoulli
  linarith

/-- Up to 2¹² roundings up add a part in 2⁴⁰ at most. -/
theorem one_add_pow_le {count : Nat} (hcount : count ≤ 2 ^ 12) :
    (1 + 1 / 2 ^ 53 : ℝ) ^ count ≤ 1 + 1 / 2 ^ 40 := by
  have hshrink := le_one_sub_pow hcount
  have hproduct : (1 + 1 / 2 ^ 53 : ℝ) ^ count * (1 - 1 / 2 ^ 53) ^ count ≤ 1 := by
    rw [← mul_pow]
    exact pow_le_one₀ (by norm_num) (by norm_num)
  have hpositive : (0 : ℝ) ≤ (1 + 1 / 2 ^ 53) ^ count := by positivity
  nlinarith

/-- Infinity stands between the greatest power that is finite and the next. -/
theorem toReal_infinity_bounds :
    10 ^ 308 * 1.5 < (infinity false).toReal ∧
      (infinity false).toReal < 10 ^ 309 * (1 - 1 / 2 ^ 41) := by
  have hlower : 3 * (10 ^ 308 * unitsPerOne) < 2 * units infiniteRank := by decide +kernel
  have hupper : 2 ^ 41 * units infiniteRank + 10 ^ 309 * unitsPerOne < 2 ^ 41 * (10 ^ 309 * unitsPerOne) := by
    decide +kernel
  have hvalue : (infinity false).toReal = (units infiniteRank : ℝ) / unitsPerOne := toReal_number_false _
  have hpower (n : Nat) : (10 : ℝ) ^ n = ((10 ^ n : Nat) : ℝ) := by push_cast; rfl
  rw [hvalue, lt_div_iff₀ unitsPerOne_cast_pos, div_lt_iff₀ unitsPerOne_cast_pos, hpower, hpower]
  generalize 10 ^ 308 = least, 10 ^ 309 = next at *
  rify at hlower hupper
  constructor <;> linarith

theorem toReal_ten : (10 : Binary64).toReal = 10 := by
  have hten := @toReal_natCast 10 (by decide)
  rwa [Nat.cast_ofNat] at hten

theorem one_le_one : (1 : Binary64) ≤ 1 := (le_iff_toReal rfl rfl).mpr le_rfl

theorem one_le_ten : (1 : Binary64) ≤ 10 := by
  rw [le_iff_toReal rfl rfl, toReal_one, toReal_ten]
  norm_num

/-- A power of an exponent that is not negative is repeated squaring over the bits of the exponent. -/
theorem powerOfTen_natCast (n : Nat) : powerOfTen n = powerBits (n.log2 + 1) n 10 1 := by
  rw [powerOfTen, Int.natAbs_natCast, if_neg (by omega)]

theorem powerOfTen_neg_natCast {n : Nat} (hn : 0 < n) : powerOfTen (-n) = 1 / powerOfTen n := by
  rw [powerOfTen_natCast, powerOfTen, Int.natAbs_neg, Int.natAbs_natCast, if_pos (by omega)]

theorem one_le_powerOfTen (n : Nat) : 1 ≤ powerOfTen n := by
  rw [powerOfTen_natCast]
  exact one_le_powerBits one_le_ten one_le_one

/-- The powers of ten are raised by `2 * n` roundings at most, also where they overflow. -/
theorem toReal_powerOfTen_le (n : Nat) : (powerOfTen n).toReal ≤ 10 ^ n * (1 + 1 / 2 ^ 53) ^ (2 * n) := by
  have hbound := toReal_powerBits_le one_le_ten one_le_one n.lt_log2_self
  rwa [toReal_one, one_mul, toReal_ten, ← powerOfTen_natCast] at hbound

/-- Those that are finite are lowered by no more than that. -/
theorem le_toReal_powerOfTen {n : Nat} (hfinite : (powerOfTen n).isFinite = true) :
    10 ^ n * (1 - 1 / 2 ^ 53) ^ (2 * n) ≤ (powerOfTen n).toReal := by
  rw [powerOfTen_natCast] at hfinite ⊢
  have hbound := le_toReal_powerBits one_le_ten one_le_one n.lt_log2_self hfinite
  rwa [toReal_one, one_mul, toReal_ten] at hbound

/-- The powers up to 10³⁰⁸ are finite; their errors are far smaller than the room above 10³⁰⁸. -/
theorem isFinite_powerOfTen {n : Nat} (hn : n ≤ 308) : (powerOfTen n).isFinite = true := by
  refine (eq_infinity_or_isFinite (pos_of_one_le (one_le_powerOfTen n))).resolve_left fun hinfinite => ?_
  apply lt_irrefl (infinity false).toReal
  calc (infinity false).toReal = (powerOfTen n).toReal := by rw [hinfinite]
    _ ≤ 10 ^ n * (1 + 1 / 2 ^ 53) ^ (2 * n) := toReal_powerOfTen_le n
    _ ≤ 10 ^ 308 * (1 + 1 / 2 ^ 40) := by
        gcongr
        · norm_num
        · exact one_add_pow_le (by omega)
    _ ≤ 10 ^ 308 * 1.5 := by gcongr; norm_num
    _ < (infinity false).toReal := toReal_infinity_bounds.1

/-- All further powers are infinite, for the same reason. -/
theorem powerOfTen_eq_infinity {n : Nat} (hn : 309 ≤ n) : powerOfTen n = infinity false := by
  refine (eq_infinity_or_isFinite (pos_of_one_le (one_le_powerOfTen n))).resolve_right fun hfinite => ?_
  apply lt_irrefl (infinity false).toReal
  calc (infinity false).toReal < 10 ^ 309 * (1 - 1 / 2 ^ 41) := toReal_infinity_bounds.2
    _ ≤ 10 ^ 309 * (1 - 1 / 2 ^ 53) ^ (2 * 309) := by
        gcongr
        exact le_one_sub_pow (by decide)
    _ = (10 * (1 - 1 / 2 ^ 53) ^ 2) ^ 309 := by rw [mul_pow, ← pow_mul]
    _ ≤ (10 * (1 - 1 / 2 ^ 53) ^ 2) ^ n := pow_le_pow_right₀ (by norm_num) hn
    _ = 10 ^ n * (1 - 1 / 2 ^ 53) ^ (2 * n) := by rw [mul_pow, ← pow_mul]
    _ ≤ (powerOfTen n).toReal := le_toReal_powerOfTen hfinite
    _ < (infinity false).toReal := toReal_lt_infinity hfinite

/-- In between, the powers are close to exact. -/
theorem powerOfTen_natCast_close {n : Nat} (hn : n ≤ 308) :
    10 ^ n * (1 - 1 / 2 ^ 41) ≤ (powerOfTen n).toReal ∧ (powerOfTen n).toReal ≤ 10 ^ n * (1 + 1 / 2 ^ 40) := by
  constructor
  · refine le_trans ?_ (le_toReal_powerOfTen (isFinite_powerOfTen hn))
    gcongr
    exact le_one_sub_pow (by omega)
  · refine (toReal_powerOfTen_le n).trans ?_
    gcongr
    exact one_add_pow_le (by omega)

variable {first last : Int}

theorem powerOfTen_of_gt (hlast : 308 < last) : powerOfTen last = infinity false := by
  obtain ⟨n, rfl⟩ := Int.eq_ofNat_of_zero_le (show 0 ≤ last by omega)
  exact powerOfTen_eq_infinity (by omega)

/-- Below 10⁻³⁰⁸ all powers are zero, although the format has numbers down to 10⁻³²³: there the reciprocal of an
    infinite power is taken. -/
theorem powerOfTen_of_lt (hfirst : first < -308) : powerOfTen first = zero false := by
  obtain ⟨n, hn⟩ := Int.eq_ofNat_of_zero_le (show 0 ≤ -first by omega)
  obtain rfl : first = -(n : Int) := by omega
  rw [powerOfTen_neg_natCast (by omega), powerOfTen_eq_infinity (by omega), one_eq]
  rfl

/-- From 10⁻³⁰⁸ to 10³⁰⁸ the powers are finite and close to exact. -/
theorem powerOfTen_close (hlower : -308 ≤ first) (hupper : first ≤ 308) :
    (powerOfTen first).isFinite = true ∧ (1 - 1 / 2 ^ 39) * 10 ^ first ≤ (powerOfTen first).toReal ∧
      (powerOfTen first).toReal ≤ (1 + 1 / 2 ^ 39) * 10 ^ first := by
  rcases lt_or_ge first 0 with hnegative | hnonneg
  · obtain ⟨n, hn⟩ := Int.eq_ofNat_of_zero_le (show 0 ≤ -first by omega)
    obtain rfl : first = -(n : Int) := by omega
    have hfinite := isFinite_powerOfTen (show n ≤ 308 by omega)
    obtain ⟨hlo, hhi⟩ := powerOfTen_natCast_close (show n ≤ 308 by omega)
    obtain ⟨hlo', hhi'⟩ := toReal_one_div (one_le_powerOfTen n) hfinite
    rw [powerOfTen_neg_natCast (by omega), zpow_neg, zpow_natCast]
    have hpower : (0 : ℝ) < 10 ^ n := by positivity
    have hvalue : 0 < (powerOfTen n).toReal := one_pos.trans_le (one_le_toReal (one_le_powerOfTen n))
    refine ⟨isFinite_one_div (one_le_powerOfTen n) hfinite, ?_, ?_⟩
    · calc (1 - 1 / 2 ^ 39 : ℝ) * (10 ^ n)⁻¹
          ≤ (1 - 1 / 2 ^ 51) * (1 + 1 / 2 ^ 40)⁻¹ * (10 ^ n)⁻¹ := by gcongr; norm_num
        _ = (1 - 1 / 2 ^ 51) * (10 ^ n * (1 + 1 / 2 ^ 40))⁻¹ := by rw [mul_inv]; ring
        _ ≤ (1 - 1 / 2 ^ 51) * (powerOfTen n).toReal⁻¹ := by gcongr
        _ ≤ (1 / powerOfTen n).toReal := hlo'
    · calc (1 / powerOfTen n).toReal ≤ (1 + 1 / 2 ^ 51) * (powerOfTen n).toReal⁻¹ := hhi'
        _ ≤ (1 + 1 / 2 ^ 51) * (10 ^ n * (1 - 1 / 2 ^ 41))⁻¹ := by gcongr
        _ = (1 + 1 / 2 ^ 51) * (1 - 1 / 2 ^ 41)⁻¹ * (10 ^ n)⁻¹ := by rw [mul_inv]; ring
        _ ≤ (1 + 1 / 2 ^ 39) * (10 ^ n)⁻¹ := by gcongr; norm_num
  · obtain ⟨n, rfl⟩ := Int.eq_ofNat_of_zero_le hnonneg
    obtain ⟨hlo, hhi⟩ := powerOfTen_natCast_close (show n ≤ 308 by omega)
    have hpower : (0 : ℝ) < 10 ^ n := by positivity
    rw [zpow_natCast]
    exact ⟨isFinite_powerOfTen (by omega), by linarith, by linarith⟩

theorem toReal_infinity_le (hlast : 308 < last) : (infinity false).toReal ≤ 10 ^ last := by
  calc (infinity false).toReal ≤ 10 ^ 309 * (1 - 1 / 2 ^ 41) := toReal_infinity_bounds.2.le
    _ ≤ 10 ^ 309 * 1 := by gcongr; norm_num
    _ = 10 ^ (309 : Int) := mul_one _
    _ ≤ 10 ^ last := zpow_le_zpow_right₀ (by norm_num) (by omega)

/-- No power lies much above the exact one, an infinite one included. -/
theorem toReal_powerOfTen_le_zpow (first : Int) : (powerOfTen first).toReal ≤ (1 + 1 / 2 ^ 39) * 10 ^ first := by
  have hpower : (0 : ℝ) < 10 ^ first := zpow_pos (by norm_num) first
  rcases lt_or_ge first (-308) with hlow | hlow
  · rw [powerOfTen_of_lt hlow, ← zero_eq, toReal_zero]
    positivity
  · rcases lt_or_ge 308 first with hhigh | hhigh
    · rw [powerOfTen_of_gt hhigh]
      exact (toReal_infinity_le hhigh).trans (le_mul_of_one_le_left hpower.le (by norm_num))
    · exact (powerOfTen_close hlow hhigh).2.2

/-- Unless it is infinite or zero, no power lies much below the exact one. -/
theorem le_toReal_powerOfTen_zpow (hlower : -308 ≤ first) :
    powerOfTen first = infinity false ∨ (1 - 1 / 2 ^ 39) * 10 ^ first ≤ (powerOfTen first).toReal := by
  rcases lt_or_ge 308 first with hhigh | hhigh
  · exact .inl (powerOfTen_of_gt hhigh)
  · exact .inr (powerOfTen_close hlower hhigh).2.1

theorem powerOfTen_pos (hlower : -308 ≤ first) (hupper : first ≤ 308) : 0 < powerOfTen first := by
  obtain ⟨hfinite, hclose, -⟩ := powerOfTen_close hlower hupper
  rw [pos_iff_toReal (isNaN_of_isFinite hfinite)]
  exact (mul_pos (by norm_num) (zpow_pos (by norm_num) first)).trans_le hclose

/-- From 10⁻³⁰⁸ to 10³⁰⁸ powers ascend with their exponents. -/
theorem powerOfTen_lt (hlower : -308 ≤ first) (hless : first < last) (hupper : last ≤ 308) :
    powerOfTen first < powerOfTen last := by
  obtain ⟨hfinite, -, hclose⟩ := powerOfTen_close hlower (by omega)
  obtain ⟨hfinite', hclose', -⟩ := powerOfTen_close (show -308 ≤ last by omega) hupper
  have hpower : (0 : ℝ) < 10 ^ first := zpow_pos (by norm_num) first
  rw [lt_iff_toReal (isNaN_of_isFinite hfinite) (isNaN_of_isFinite hfinite')]
  calc (powerOfTen first).toReal ≤ (1 + 1 / 2 ^ 39) * 10 ^ first := hclose
    _ < (1 - 1 / 2 ^ 39) * (10 ^ first * 10) := by linarith
    _ = (1 - 1 / 2 ^ 39) * 10 ^ (first + 1) := by rw [zpow_add_one₀ (by norm_num)]
    _ ≤ (1 - 1 / 2 ^ 39) * 10 ^ last := by
        gcongr
        · norm_num
        · omega
    _ ≤ (powerOfTen last).toReal := hclose'

/-- A power that is not zero has an exponent of at least -308. -/
theorem le_exponent_of_pos (hpositive : 0 < powerOfTen first) : -308 ≤ first := by
  by_contra hlow
  rw [powerOfTen_of_lt (not_le.mp hlow), zero_eq] at hpositive
  exact absurd hpositive (by decide)

/-- A power that is finite has an exponent of at most 308. -/
theorem exponent_le_of_isFinite (hfinite : (powerOfTen last).isFinite = true) : last ≤ 308 := by
  by_contra hhigh
  rw [powerOfTen_of_gt (not_le.mp hhigh)] at hfinite
  exact absurd hfinite (by decide)

end ExperimentCharts.Binary64
