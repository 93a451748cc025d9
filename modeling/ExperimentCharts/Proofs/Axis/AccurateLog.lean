import ExperimentCharts.Proofs.Axis.Decades
import Mathlib.Algebra.Order.Archimedean.Basic

namespace ExperimentCharts

open Binary64

variable {x : Binary64}

/-- Numbers of moderate size have a neighbour in the format within a unit in the last place. -/
theorem exists_toReal_close {r : ℝ} (hlower : (2 : ℝ) ^ (-60 : Int) ≤ |r|) (hupper : |r| ≤ 2 ^ 10) :
    ∃ y : Binary64, y.isFinite = true ∧ |y.toReal - r| ≤ |r| / 2 ^ 52 := by
  have hpositive : 0 < |r| := (zpow_pos (by norm_num) _).trans_le hlower
  obtain ⟨n, hbelow, habove⟩ := exists_mem_Ico_zpow hpositive (show (1 : ℝ) < 2 by norm_num)
  have hn : -61 ≤ n := by
    have hpower := (zpow_lt_zpow_iff_right₀ (show (1 : ℝ) < 2 by norm_num)).mp (hlower.trans_lt habove)
    omega
  have hn' : n ≤ 10 := (zpow_le_zpow_iff_right₀ (show (1 : ℝ) < 2 by norm_num)).mp (hbelow.trans hupper)
  obtain ⟨halvings, hhalvings⟩ := Int.eq_ofNat_of_zero_le (show 0 ≤ 52 - n by omega)
  have hscale : (2 : ℝ) ^ n * 2 ^ halvings = 2 ^ 52 := by
    rw [← zpow_natCast 2 halvings, ← zpow_add₀ (by norm_num), show n + (halvings : Int) = 52 by omega]
    rfl
  have hscale' : (2 : ℝ) ^ (n + 1) * 2 ^ halvings = 2 ^ 53 := by
    rw [zpow_add_one₀ (by norm_num), mul_right_comm, hscale]
    norm_num
  have hunit : (0 : ℝ) < 2 ^ halvings := by positivity
  -- Scaled to a whole number of 53 bits, the value is cut below its last bit.
  have hlarge : 2 ^ 52 ≤ |r| * 2 ^ halvings := by
    rw [← hscale]
    gcongr
  have hsmall : |r * 2 ^ halvings| ≤ 2 ^ 53 := by
    rw [abs_mul, abs_of_pos hunit, ← hscale']
    gcongr
  obtain ⟨hleast, hgreatest⟩ := abs_le.mp hsmall
  have hfloor : -2 ^ 53 ≤ ⌊r * 2 ^ halvings⌋ := Int.le_floor.mpr (by exact_mod_cast hleast)
  have hfloor' : ⌊r * 2 ^ halvings⌋ ≤ 2 ^ 53 := by
    have hle : (⌊r * 2 ^ halvings⌋ : ℝ) ≤ 2 ^ 53 := (Int.floor_le _).trans hgreatest
    exact_mod_cast hle
  obtain ⟨y, hfinite, hvalue⟩ := exists_toReal_eq (show ⌊r * 2 ^ halvings⌋.natAbs ≤ 2 ^ 53 by omega)
    (show halvings ≤ 1074 by omega)
  refine ⟨y, hfinite, ?_⟩
  have hcut : |(⌊r * 2 ^ halvings⌋ : ℝ) - r * 2 ^ halvings| ≤ 1 := by
    have hbelow := Int.floor_le (r * 2 ^ halvings)
    have habove := Int.lt_floor_add_one (r * 2 ^ halvings)
    exact abs_le.mpr ⟨by linarith, by linarith⟩
  have herror : y.toReal - r = (⌊r * 2 ^ halvings⌋ - r * 2 ^ halvings) / 2 ^ halvings := by
    rw [hvalue]
    field_simp
  rw [herror, abs_div, abs_of_pos hunit, div_le_div_iff₀ hunit (by positivity)]
  calc |(⌊r * 2 ^ halvings⌋ : ℝ) - r * 2 ^ halvings| * 2 ^ 52 ≤ 1 * 2 ^ 52 := by gcongr
    _ ≤ |r| * 2 ^ halvings := by rwa [one_mul]

/-- The neighbours of one miss it by a part in 2⁵³ or more. -/
theorem toReal_le_or_le_of_ne_one (hpositive : 0 < x) (hne : x ≠ 1) :
    x.toReal ≤ 1 - 1 / 2 ^ 53 ∨ 1 + 1 / 2 ^ 53 ≤ x.toReal := by
  obtain ⟨rank, rfl, -⟩ := exists_number_of_pos hpositive
  have hrank : rank.val ≠ 0x3FF0000000000000 := fun hrank => hne (by rw [one_eq]; exact congrArg _ (Fin.ext hrank))
  rw [toReal_number_false]
  rcases Nat.lt_or_gt_of_ne hrank with hless | hmore
  · left
    have hnext : 2 ^ 53 * units 0x3FEFFFFFFFFFFFFF + unitsPerOne ≤ 2 ^ 53 * unitsPerOne := by decide +kernel
    have hle : units rank.val ≤ units 0x3FEFFFFFFFFFFFFF := units_strictMono.monotone (Nat.le_of_lt_succ hless)
    generalize units 0x3FEFFFFFFFFFFFFF = before at *
    rw [div_le_iff₀ unitsPerOne_cast_pos]
    rify at hnext hle
    linarith
  · right
    have hnext : 2 ^ 53 * unitsPerOne + unitsPerOne ≤ 2 ^ 53 * units 0x3FF0000000000001 := by decide +kernel
    have hle : units 0x3FF0000000000001 ≤ units rank.val := units_strictMono.monotone hmore
    generalize units 0x3FF0000000000001 = after at *
    rw [le_div_iff₀ unitsPerOne_cast_pos]
    rify at hnext hle
    linarith

/-- Apart from one, no number comes so close to one that its logarithm falls below the range of 53 bits. -/
theorem two_zpow_le_abs_logb (hpositive : 0 < x) (hne : x ≠ 1) :
    (2 : ℝ) ^ (-60 : Int) ≤ |Real.logb 10 x.toReal| := by
  have hvalue := toReal_pos hpositive
  have hten : 0 < Real.log 10 := Real.log_pos (by norm_num)
  have hlog : 1 / 2 ^ 54 ≤ |Real.log x.toReal| := by
    rcases toReal_le_or_le_of_ne_one hpositive hne with hbelow | habove
    · have hupper := Real.log_le_sub_one_of_pos hvalue
      rw [abs_of_nonpos (by linarith)]
      linarith
    · have hlower := Real.one_sub_inv_le_log_of_pos hvalue
      have hinverse : x.toReal⁻¹ ≤ (1 + 1 / 2 ^ 53)⁻¹ := inv_anti₀ (by norm_num) habove
      have hgap : (1 + 1 / 2 ^ 53 : ℝ)⁻¹ ≤ 1 - 1 / 2 ^ 54 := by norm_num
      exact (by linarith : 1 / 2 ^ 54 ≤ Real.log x.toReal).trans (le_abs_self _)
  rw [Real.logb, abs_div, abs_of_pos hten, le_div_iff₀ hten]
  calc (2 : ℝ) ^ (-60 : Int) * Real.log 10 ≤ 2 ^ (-60 : Int) * 2.34 := by gcongr; exact log_ten_le
    _ ≤ 1 / 2 ^ 54 := by norm_num
    _ ≤ |Real.log x.toReal| := hlog

/-- Every finite, positive number has a logarithm in the format that is off by one unit in the last place at most. -/
theorem exists_accurate (hx : x.isFinite = true) (hpositive : 0 < x) :
    ∃ y : Binary64, y.isFinite = true ∧
      |y.toReal - Real.logb 10 x.toReal| ≤ |Real.logb 10 x.toReal| / 2 ^ 52 := by
  by_cases hone : x = 1
  · refine ⟨0, by rw [zero_eq]; decide, ?_⟩
    simp [hone, toReal_zero, toReal_one]
  · exact exists_toReal_close (two_zpow_le_abs_logb hpositive hone) ((abs_logb_le hx hpositive).trans (by norm_num))

open Classical in
/-- A logarithm for each number, within a unit in the last place where the number has one at all. -/
noncomputable def accurateLog (x : Binary64) : Binary64 :=
  if h : x.isFinite = true ∧ 0 < x then (exists_accurate h.1 h.2).choose else 0

/-- These logarithms are accurate at every finite, positive number. So what is proved about axes for accurate
    logarithms is not about nothing. -/
theorem logAccurate_accurateLog (hx : x.isFinite = true) (hpositive : 0 < x) : LogAccurate accurateLog x := by
  have hchosen : accurateLog x = (exists_accurate hx hpositive).choose := dif_pos ⟨hx, hpositive⟩
  obtain ⟨hfinite, hclose⟩ := (exists_accurate hx hpositive).choose_spec
  rw [← hchosen] at hfinite hclose
  exact ⟨hfinite, hclose⟩

end ExperimentCharts
