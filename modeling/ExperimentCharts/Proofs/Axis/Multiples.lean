import ExperimentCharts.Proofs.Axis.Decades

namespace ExperimentCharts

open Binary64

/-- A multiple of a power of ten. -/
def tick (factor : Nat) (exponent : Int) : Binary64 := factor * .powerOfTen exponent

/-- The ticks from a power of ten up to the next one. -/
def decadeTicks (exponent : Int) : List Binary64 := (List.range' 1 9).map fun factor => tick factor exponent

variable {factor other : Nat} {exponent later : Int} {value : Binary64}

theorem tick_one (exponent : Int) : tick 1 exponent = .powerOfTen exponent := natCast_one_mul _

/-- The first tick of a decade is a major one, and the others are the minor ones. -/
theorem decadeTicks_eq (exponent : Int) :
    decadeTicks exponent = .powerOfTen exponent :: multiples (.powerOfTen exponent) := by
  change tick 1 exponent :: multiples (.powerOfTen exponent) = _
  rw [tick_one]

/-- The ticks of a decade are the multiples of its power by one to nine. -/
theorem mem_decadeTicks_iff :
    value ∈ decadeTicks exponent ↔ ∃ factor, 1 ≤ factor ∧ factor ≤ 9 ∧ value = tick factor exponent := by
  simp only [decadeTicks, List.mem_map, List.mem_range'_1]
  constructor
  · rintro ⟨factor, ⟨hone, hten⟩, rfl⟩
    exact ⟨factor, hone, by omega, rfl⟩
  · rintro ⟨factor, hone, hnine, rfl⟩
    exact ⟨factor, ⟨hone, by omega⟩, rfl⟩

theorem one_le_natCast (hone : 1 ≤ factor) (hnine : factor ≤ 9) : (1 : Binary64) ≤ (factor : Binary64) := by
  obtain ⟨rank, hnumber, -⟩ := exists_natCast_eq (show factor ≤ 2 ^ 53 by omega)
  have hnan : (factor : Binary64).isNaN = false := by rw [hnumber]; rfl
  rw [le_iff_toReal rfl hnan, toReal_one, toReal_natCast (by omega)]
  exact_mod_cast hone

/-- Below 10⁻³⁰⁸ all ticks are zero. -/
theorem tick_of_lt (hnine : factor ≤ 9) (hlow : exponent < -308) : tick factor exponent = zero false := by
  obtain ⟨rank, hnumber, hrank, -⟩ := exists_natCast_eq (show factor ≤ 2 ^ 53 by omega)
  have hzero : nearestRank (units rank.val * units 0) unitsPerOne = 0 := by
    rw [units_zero, Nat.mul_zero]
    exact Nat.le_zero.mp (nearestRank_le unitsPerOne_pos (Nat.zero_le _) (Nat.zero_le _))
  rw [tick, powerOfTen_of_lt hlow, hnumber, zero]
  change mul _ _ = _
  rw [mul, if_neg (by rw [not_or]; exact ⟨hrank.ne, by decide⟩)]
  exact congrArg (number false) (Fin.ext hzero)

theorem tick_of_gt (hone : 1 ≤ factor) (hnine : factor ≤ 9) (hhigh : 308 < exponent) :
    tick factor exponent = infinity false := by
  rw [tick, powerOfTen_of_gt hhigh]
  exact mul_eq_infinity (one_le_natCast hone hnine) one_le_infinity (.inr rfl)

/-- Only the exponents from -308 to 308 have ticks that are finite and positive. -/
theorem exponent_mem_of_tick (hone : 1 ≤ factor) (hnine : factor ≤ 9) (hfinite : (tick factor exponent).isFinite = true)
    (hpositive : 0 < tick factor exponent) : -308 ≤ exponent ∧ exponent ≤ 308 := by
  constructor
  · by_contra hlow
    rw [tick_of_lt hnine (not_le.mp hlow), zero_eq] at hpositive
    exact absurd hpositive (by decide)
  · by_contra hhigh
    rw [tick_of_gt hone hnine (not_le.mp hhigh)] at hfinite
    exact absurd hfinite (by decide)

/-- From 10⁻³⁰⁸ on, powers of ten have 42 bits at least. -/
theorem two_pow_le_zpow_mul_unitsPerOne (hlower : -308 ≤ exponent) : (2 : ℝ) ^ 42 ≤ 10 ^ exponent * unitsPerOne := by
  have hunits : 2 ^ 42 * 10 ^ 308 ≤ unitsPerOne := by decide +kernel
  have hleast : (2 : ℝ) ^ 42 ≤ (10 : ℝ) ^ (-308 : Int) * unitsPerOne := by
    rw [zpow_neg, inv_mul_eq_div, le_div_iff₀ (by positivity)]
    exact_mod_cast hunits
  refine hleast.trans (mul_le_mul_of_nonneg_right ?_ unitsPerOne_cast_pos.le)
  exact zpow_le_zpow_right₀ (by norm_num) hlower

section Close

variable (hone : 1 ≤ factor) (hnine : factor ≤ 9) (hlower : -308 ≤ exponent) (hupper : exponent ≤ 308)

include hone hnine hlower hupper

/-- So have their multiples 41, computed ones included. -/
theorem two_pow_le_tick : (2 : ℝ) ^ 41 ≤ (factor : Binary64).toReal * (powerOfTen exponent).toReal * unitsPerOne := by
  have hlarge := two_pow_le_zpow_mul_unitsPerOne hlower
  have hclose := (powerOfTen_close hlower hupper).2.1
  have hpower : (0 : ℝ) < 10 ^ exponent := zpow_pos (by norm_num) exponent
  have hfactor : (1 : ℝ) ≤ factor := Nat.one_le_cast.mpr hone
  have hunit := unitsPerOne_cast_pos
  rw [toReal_natCast (by omega)]
  generalize (unitsPerOne : ℝ) = unit at *
  calc (2 : ℝ) ^ 41 ≤ 1 * ((1 - 1 / 2 ^ 39) * (10 ^ exponent * unit)) := by linarith
    _ = 1 * ((1 - 1 / 2 ^ 39) * 10 ^ exponent) * unit := by ring
    _ ≤ factor * (powerOfTen exponent).toReal * unit := by gcongr

/-- A tick is close to exact from above, also if it overflows. -/
theorem toReal_tick_le : (tick factor exponent).toReal ≤ (1 + 1 / 2 ^ 38) * (factor * 10 ^ exponent) := by
  obtain ⟨hfinite, -, hclose⟩ := powerOfTen_close hlower hupper
  have hpower : (0 : ℝ) < 10 ^ exponent := zpow_pos (by norm_num) exponent
  have hbound := toReal_mul_le_of_large (pos_of_one_le (one_le_natCast hone hnine)) (powerOfTen_pos hlower hupper)
    (isFinite_natCast (by omega)) hfinite (show 41 ≤ 52 by decide) (two_pow_le_tick hone hnine hlower hupper)
  rw [toReal_natCast (by omega)] at hbound
  calc (tick factor exponent).toReal ≤ (1 + 1 / 2 ^ 42) * (factor * (powerOfTen exponent).toReal) := hbound
    _ ≤ (1 + 1 / 2 ^ 42) * (factor * ((1 + 1 / 2 ^ 39) * 10 ^ exponent)) := by gcongr
    _ = (1 + 1 / 2 ^ 42) * (1 + 1 / 2 ^ 39) * (factor * 10 ^ exponent) := by ring
    _ ≤ (1 + 1 / 2 ^ 38) * (factor * 10 ^ exponent) := by gcongr; norm_num

/-- It is close to exact from below if it is finite. -/
theorem le_toReal_tick (hfinite : (tick factor exponent).isFinite = true) :
    (1 - 1 / 2 ^ 38) * (factor * 10 ^ exponent) ≤ (tick factor exponent).toReal := by
  obtain ⟨hpower_finite, hclose, -⟩ := powerOfTen_close hlower hupper
  have hpower : (0 : ℝ) < 10 ^ exponent := zpow_pos (by norm_num) exponent
  have hbound := le_toReal_mul_of_large (pos_of_one_le (one_le_natCast hone hnine)) (powerOfTen_pos hlower hupper)
    (isFinite_natCast (by omega)) hpower_finite (show 41 ≤ 52 by decide) (two_pow_le_tick hone hnine hlower hupper) hfinite
  rw [toReal_natCast (by omega)] at hbound
  calc (1 - 1 / 2 ^ 38 : ℝ) * (factor * 10 ^ exponent)
      ≤ (1 - 1 / 2 ^ 42) * (1 - 1 / 2 ^ 39) * (factor * 10 ^ exponent) := by gcongr; norm_num
    _ = (1 - 1 / 2 ^ 42) * (factor * ((1 - 1 / 2 ^ 39) * 10 ^ exponent)) := by ring
    _ ≤ (1 - 1 / 2 ^ 42) * (factor * (powerOfTen exponent).toReal) := by gcongr
    _ ≤ (tick factor exponent).toReal := hbound

theorem two_pow_le_toReal_tick (hfinite : (tick factor exponent).isFinite = true) :
    (2 : ℝ) ^ 41 ≤ (tick factor exponent).toReal * unitsPerOne := by
  have hlarge := two_pow_le_zpow_mul_unitsPerOne hlower
  have hfactor : (1 : ℝ) ≤ factor := Nat.one_le_cast.mpr hone
  have hclose := le_toReal_tick hone hnine hlower hupper hfinite
  have hpower : (0 : ℝ) < 10 ^ exponent := zpow_pos (by norm_num) exponent
  have hunit := unitsPerOne_cast_pos
  generalize (unitsPerOne : ℝ) = unit at *
  calc (2 : ℝ) ^ 41 ≤ (1 - 1 / 2 ^ 38) * (1 * (10 ^ exponent * unit)) := by linarith
    _ ≤ (1 - 1 / 2 ^ 38) * (factor * (10 ^ exponent * unit)) := by gcongr
    _ = (1 - 1 / 2 ^ 38) * (factor * 10 ^ exponent) * unit := by ring
    _ ≤ (tick factor exponent).toReal * unit := by gcongr

/-- Every tick is finite but the multiples of the greatest power. -/
theorem isFinite_tick (hless : factor = 1 ∨ exponent < 308) : (tick factor exponent).isFinite = true := by
  rcases hless with rfl | hless
  · rw [tick_one]
    exact (powerOfTen_close hlower hupper).1
  · have hnumber : 0 < tick factor exponent := mul_pos_of_one_le_left (one_le_natCast hone hnine)
      (powerOfTen_pos hlower hupper) (isFinite_natCast (by omega)) (powerOfTen_close hlower hupper).1
    refine (eq_infinity_or_isFinite hnumber).resolve_left fun hinfinite => ?_
    have hbound := toReal_tick_le hone hnine hlower hupper
    have hfactor : (factor : ℝ) ≤ 9 := by exact_mod_cast hnine
    have hnext : (10 : ℝ) ^ 308 = 10 ^ (307 : Int) * 10 := by rw [← zpow_add_one₀ (by norm_num)]; rfl
    have hpower : (0 : ℝ) < 10 ^ (307 : Int) := zpow_pos (by norm_num) 307
    apply lt_irrefl (infinity false).toReal
    calc (infinity false).toReal ≤ (1 + 1 / 2 ^ 38) * (factor * 10 ^ exponent) := by rwa [hinfinite] at hbound
      _ ≤ (1 + 1 / 2 ^ 38) * (9 * 10 ^ (307 : Int)) := by
          gcongr
          · norm_num
          · omega
      _ ≤ 10 ^ 308 * 1.5 := by
          rw [hnext]
          generalize (10 : ℝ) ^ (307 : Int) = power at hpower ⊢
          linarith
      _ < (infinity false).toReal := toReal_infinity_bounds.1

end Close

/-- Finite ticks are in order by their exponents first and their factors second. -/
theorem tick_lt (hone : 1 ≤ factor) (hnine : factor ≤ 9) (hone' : 1 ≤ other) (hnine' : other ≤ 9)
    (hlower : -308 ≤ exponent) (hupper : later ≤ 308) (hbefore : exponent < later ∨ exponent = later ∧ factor < other)
    (hfinite : (tick factor exponent).isFinite = true) (hfinite' : (tick other later).isFinite = true) :
    tick factor exponent < tick other later := by
  have hpower : (0 : ℝ) < 10 ^ exponent := zpow_pos (by norm_num) exponent
  have habove := toReal_tick_le hone hnine hlower (show exponent ≤ 308 by omega)
  have hbelow := le_toReal_tick hone' hnine' (show -308 ≤ later by omega) hupper hfinite'
  -- In units of the smaller power, the larger tick is the next whole number or more.
  have hstep : ((factor : ℝ) + 1) * 10 ^ exponent ≤ other * 10 ^ later := by
    rcases hbefore with hless | ⟨rfl, hless⟩
    · have hfactor : (factor : ℝ) + 1 ≤ 10 := by exact_mod_cast Nat.succ_le_succ hnine
      have hother : (1 : ℝ) ≤ other := Nat.one_le_cast.mpr hone'
      calc ((factor : ℝ) + 1) * 10 ^ exponent ≤ 10 * 10 ^ exponent := by gcongr
        _ = 10 ^ (exponent + 1) := by rw [zpow_add_one₀ (by norm_num), mul_comm]
        _ ≤ 1 * 10 ^ later := by
            rw [one_mul]
            exact zpow_le_zpow_right₀ (by norm_num) (by omega)
        _ ≤ other * 10 ^ later := by gcongr
    · have hfactor : (factor : ℝ) + 1 ≤ other := by exact_mod_cast hless
      gcongr
  rw [lt_iff_toReal (isNaN_of_isFinite hfinite) (isNaN_of_isFinite hfinite')]
  have hfactor : (factor : ℝ) ≤ 9 := by exact_mod_cast hnine
  calc (tick factor exponent).toReal ≤ (1 + 1 / 2 ^ 38) * (factor * 10 ^ exponent) := habove
    _ = (1 + 1 / 2 ^ 38) * factor * 10 ^ exponent := by ring
    _ < (1 - 1 / 2 ^ 38) * (factor + 1) * 10 ^ exponent := mul_lt_mul_of_pos_right (by linarith) hpower
    _ = (1 - 1 / 2 ^ 38) * ((factor + 1) * 10 ^ exponent) := by ring
    _ ≤ (1 - 1 / 2 ^ 38) * (other * 10 ^ later) := by gcongr
    _ ≤ (tick other later).toReal := hbelow

theorem toReal_tick_le_toReal_tick (hone : 1 ≤ factor) (hnine : factor ≤ 9) (hone' : 1 ≤ other) (hnine' : other ≤ 9)
    (hlower : -308 ≤ exponent) (hupper : later ≤ 308) (hbefore : exponent < later ∨ exponent = later ∧ factor ≤ other)
    (hfinite : (tick factor exponent).isFinite = true) (hfinite' : (tick other later).isFinite = true) :
    (tick factor exponent).toReal ≤ (tick other later).toReal := by
  by_cases hsame : exponent = later ∧ factor = other
  · rw [hsame.1, hsame.2]
  · have hless := tick_lt hone hnine hone' hnine' hlower hupper (by omega) hfinite hfinite'
    exact ((lt_iff_toReal (isNaN_of_isFinite hfinite) (isNaN_of_isFinite hfinite')).mp hless).le

end ExperimentCharts
