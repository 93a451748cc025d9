import ExperimentCharts.Axis.Ticks
import ExperimentCharts.Proofs.Binary64.Powers
import Mathlib.Analysis.Complex.ExponentialBounds
import Mathlib.Analysis.SpecialFunctions.Log.Base

namespace ExperimentCharts

open Binary64

/-- The logarithm of a number is off by one unit in the last place at most. -/
structure LogAccurate (log10 : Binary64 → Binary64) (x : Binary64) : Prop where
  isFinite : (log10 x).isFinite = true
  close : |(log10 x).toReal - Real.logb 10 x.toReal| ≤ |Real.logb 10 x.toReal| / 2 ^ 52

/-- A logarithm compares with an integer as its argument does with the power. -/
theorem intCast_le_logb_iff {k : Int} {y : ℝ} (hy : 0 < y) : k ≤ Real.logb 10 y ↔ (10 : ℝ) ^ k ≤ y := by
  rw [Real.le_logb_iff_rpow_le (by norm_num) hy, Real.rpow_intCast]

theorem logb_le_intCast_iff {k : Int} {y : ℝ} (hy : 0 < y) : Real.logb 10 y ≤ k ↔ y ≤ (10 : ℝ) ^ k := by
  rw [Real.logb_le_iff_le_rpow (by norm_num) hy, Real.rpow_intCast]

theorem logb_zpow (k : Int) : Real.logb 10 ((10 : ℝ) ^ k) = k := by
  rw [← Real.rpow_intCast, Real.logb_rpow (by norm_num) (by norm_num)]

theorem log_ten_le : Real.log 10 ≤ 2.34 := by
  have htwo := Real.log_two_lt_d9
  have hrest := Real.log_le_sub_one_of_pos (show (0 : ℝ) < 1.25 by norm_num)
  rw [show (10 : ℝ) = 2 ^ 3 * 1.25 by norm_num, Real.log_mul (by norm_num) (by norm_num), Real.log_pow]
  push_cast
  linarith

/-- Three parts in 10⁹ of a value are more than the tolerance on its logarithm. -/
theorem le_logb_one_add : 1.2e-9 ≤ Real.logb 10 (1 + 2.9e-9) := by
  have hten := log_ten_le
  have hmargin := Real.one_sub_inv_le_log_of_pos (show (0 : ℝ) < 1 + 2.9e-9 by norm_num)
  rw [Real.logb, le_div_iff₀ (Real.log_pos (by norm_num))]
  calc (1.2e-9 : ℝ) * Real.log 10 ≤ 1.2e-9 * 2.34 := by gcongr
    _ ≤ 1 - (1 + 2.9e-9)⁻¹ := by norm_num
    _ ≤ Real.log (1 + 2.9e-9) := hmargin

/-- A value that misses a power from below by that much has a logarithm that misses the exponent by more than the
    tolerance. -/
theorem logb_le_of_mul_le {k : Int} {y : ℝ} (hy : 0 < y) (hle : y * (1 + 2.9e-9) ≤ 10 ^ k) :
    Real.logb 10 y ≤ k - 1.2e-9 := by
  have hlog := (logb_le_intCast_iff (by positivity)).mpr hle
  rw [Real.logb_mul hy.ne' (by norm_num)] at hlog
  linarith [le_logb_one_add]

theorem le_logb_of_mul_le {k : Int} {y : ℝ} (hle : 10 ^ k * (1 + 2.9e-9) ≤ y) :
    k + 1.2e-9 ≤ Real.logb 10 y := by
  have hpower : (0 : ℝ) < 10 ^ k := zpow_pos (by norm_num) k
  have hlog := Real.logb_le_logb_of_le (show (1 : ℝ) < 10 by norm_num) (by positivity) hle
  rw [Real.logb_mul hpower.ne' (by norm_num), logb_zpow] at hlog
  linarith [le_logb_one_add]

variable {log10 : Binary64 → Binary64} {x : Binary64} {k : Int}

/-- The logarithms of the format stay within 324. -/
theorem abs_logb_le (hx : x.isFinite = true) (hpositive : 0 < x) : |Real.logb 10 x.toReal| ≤ 324 := by
  have hunit : (unitsPerOne : ℝ) ≤ 10 ^ 324 := by
    have hunits : unitsPerOne ≤ 10 ^ 324 := by decide +kernel
    exact_mod_cast hunits
  have hlower : (10 : ℝ) ^ (-324 : Int) ≤ x.toReal := by
    refine le_trans ?_ (inv_unitsPerOne_le_toReal hpositive)
    rw [zpow_neg]
    exact inv_anti₀ unitsPerOne_cast_pos hunit
  have hupper : x.toReal ≤ (10 : ℝ) ^ (324 : Int) := by
    calc x.toReal ≤ (infinity false).toReal := (toReal_lt_infinity hx).le
      _ ≤ 10 ^ 309 * (1 - 1 / 2 ^ 41) := toReal_infinity_bounds.2.le
      _ ≤ 10 ^ 309 * 1 := by gcongr; norm_num
      _ = 10 ^ 309 := mul_one _
      _ ≤ 10 ^ 324 := pow_le_pow_right₀ (by norm_num) (by decide)
  rw [abs_le]
  constructor
  · exact_mod_cast (intCast_le_logb_iff (toReal_pos hpositive)).mpr hlower
  · exact_mod_cast (logb_le_intCast_iff (toReal_pos hpositive)).mpr hupper

theorem relativeTolerance_eq : relativeTolerance = .number false ⟨0x3E112E0BE826D695, by decide⟩ := by
  decide +kernel

theorem isFinite_relativeTolerance : relativeTolerance.isFinite = true := by
  rw [relativeTolerance_eq]
  decide

/-- The tolerance is a part in 10⁹ to within its rounding. -/
theorem toReal_relativeTolerance :
    0.9999e-9 ≤ relativeTolerance.toReal ∧ relativeTolerance.toReal ≤ 1.0001e-9 := by
  have hlower : 9999 * unitsPerOne ≤ 10 ^ 13 * units 0x3E112E0BE826D695 := by decide +kernel
  have hupper : 10 ^ 13 * units 0x3E112E0BE826D695 ≤ 10001 * unitsPerOne := by decide +kernel
  rw [relativeTolerance_eq, toReal_number_false, le_div_iff₀ unitsPerOne_cast_pos, div_le_iff₀ unitsPerOne_cast_pos]
  rify at hlower hupper
  constructor <;> linarith

theorem abs_relativeTolerance_le : |relativeTolerance.toReal| ≤ 1 := by
  have htolerance := toReal_relativeTolerance
  exact abs_le.mpr ⟨by linarith, by linarith⟩

/-- A ratio close to one has a logarithm close to zero. -/
theorem abs_logb_le_of_close {ratio error : ℝ} (herror : error ≤ 1 / 2) (hclose : |ratio - 1| ≤ error) :
    |Real.logb 10 ratio| ≤ 4 * error := by
  obtain ⟨hlower, hupper⟩ := abs_le.mp hclose
  have hratio : 0 < ratio := by linarith
  have hten : 1 / 2 ≤ Real.log 10 := by
    have hbound := Real.one_sub_inv_le_log_of_pos (show (0 : ℝ) < 10 by norm_num)
    linarith
  have hinverse : ratio⁻¹ ≤ 1 + 2 * error := by
    rw [inv_le_iff_one_le_mul₀ hratio]
    nlinarith
  have hlog : |Real.log ratio| ≤ 2 * error := by
    have hbelow := Real.one_sub_inv_le_log_of_pos hratio
    have habove := Real.log_le_sub_one_of_pos hratio
    exact abs_le.mpr ⟨by linarith, by linarith⟩
  have hten' : 0 < Real.log 10 := by linarith
  rw [Real.logb, abs_div, abs_of_pos hten', div_le_iff₀ hten']
  nlinarith

/-- A whole number is an accurate logarithm of what comes close enough to its power of ten. -/
theorem logAccurate_of_close (hk : |(k : ℝ)| ≤ 2 ^ 53) (hfinite : (log10 x).isFinite = true)
    (hvalue : (log10 x).toReal = k) (hclose : |x.toReal / 10 ^ k - 1| ≤ |(k : ℝ)| / 2 ^ 55) :
    LogAccurate log10 x := by
  refine ⟨hfinite, ?_⟩
  have hpower : (0 : ℝ) < 10 ^ k := zpow_pos (by norm_num) k
  have hratio := abs_logb_le_of_close (by linarith) hclose
  have hnonzero : x.toReal ≠ 0 := by
    intro hzero
    rw [hzero, zero_div, zero_sub, abs_neg, abs_one] at hclose
    linarith
  have hexact : Real.logb 10 x.toReal = k + Real.logb 10 (x.toReal / 10 ^ k) := by
    rw [Real.logb_div hnonzero hpower.ne', logb_zpow]
    ring
  rw [hvalue, hexact]
  generalize Real.logb 10 (x.toReal / 10 ^ k) = rest at *
  have hsize : |(k : ℝ)| - |rest| ≤ |k + rest| := by simpa using abs_sub_abs_le_abs_sub (k : ℝ) (-rest)
  rw [sub_add_cancel_left, abs_neg]
  linarith [abs_nonneg (k : ℝ)]

section Exponents

variable (hx : x.isFinite = true) (hpositive : 0 < x) (hlog : LogAccurate log10 x) (hk : k.natAbs ≤ 2 ^ 19)

include hx hpositive hlog

/-- An accurate logarithm is off by far less than the tolerance. -/
theorem log_bounds :
    Real.logb 10 x.toReal - 1e-13 ≤ (log10 x).toReal ∧ (log10 x).toReal ≤ Real.logb 10 x.toReal + 1e-13 := by
  have herror : |(log10 x).toReal - Real.logb 10 x.toReal| ≤ 1e-13 := by
    calc |(log10 x).toReal - Real.logb 10 x.toReal| ≤ |Real.logb 10 x.toReal| / 2 ^ 52 := hlog.close
      _ ≤ 324 / 2 ^ 52 := by
          gcongr
          exact abs_logb_le hx hpositive
      _ ≤ 1e-13 := by norm_num
  have hbounds := abs_le.mp herror
  exact ⟨by linarith, by linarith⟩

/-- Shifted by up to one, it is still far inside the range of 32 bits. -/
theorem abs_log_add_le {offset : ℝ} (hoffset : |offset| ≤ 1) : |(log10 x).toReal + offset| ≤ 2 ^ 19 := by
  have hsize := abs_le.mp (abs_logb_le hx hpositive)
  obtain ⟨hlower, hupper⟩ := log_bounds hx hpositive hlog
  have hoffset := abs_le.mp hoffset
  exact abs_le.mpr ⟨by linarith, by linarith⟩

include hk

/-- An exponent that the logarithm misses by less than the tolerance is not above the floor. -/
theorem le_floor_log_of_logb (hle : k - 0.9e-9 ≤ Real.logb 10 x.toReal) :
    k ≤ (log10 x + relativeTolerance).floor .signed32 := by
  apply le_floor_add hlog.isFinite isFinite_relativeTolerance hk
  · exact abs_log_add_le hx hpositive hlog abs_relativeTolerance_le
  · linarith [log_bounds hx hpositive hlog, toReal_relativeTolerance]

/-- One that it misses by clearly more is above the floor. -/
theorem floor_log_lt_of_logb (hle : Real.logb 10 x.toReal ≤ k - 1.2e-9) :
    (log10 x + relativeTolerance).floor .signed32 < k := by
  apply floor_add_lt hlog.isFinite isFinite_relativeTolerance hk
  · exact abs_log_add_le hx hpositive hlog abs_relativeTolerance_le
  · linarith [log_bounds hx hpositive hlog, toReal_relativeTolerance]

/-- An exponent that the logarithm exceeds by less than the tolerance is not below the ceiling. -/
theorem ceil_log_le_of_logb (hle : Real.logb 10 x.toReal ≤ k + 0.9e-9) :
    (log10 x - relativeTolerance).ceil .signed32 ≤ k := by
  rw [sub_eq_add_neg_of_isFinite hlog.isFinite isFinite_relativeTolerance]
  apply ceil_add_le hlog.isFinite ((isFinite_neg _).trans isFinite_relativeTolerance) hk <;> rw [toReal_neg]
  · exact abs_log_add_le hx hpositive hlog ((abs_neg _).trans_le abs_relativeTolerance_le)
  · linarith [log_bounds hx hpositive hlog, toReal_relativeTolerance]

/-- One that it exceeds by clearly more is below the ceiling. -/
theorem lt_ceil_log_of_logb (hle : k + 1.2e-9 ≤ Real.logb 10 x.toReal) :
    k < (log10 x - relativeTolerance).ceil .signed32 := by
  rw [sub_eq_add_neg_of_isFinite hlog.isFinite isFinite_relativeTolerance]
  apply lt_ceil_add hlog.isFinite ((isFinite_neg _).trans isFinite_relativeTolerance) hk <;> rw [toReal_neg]
  · exact abs_log_add_le hx hpositive hlog ((abs_neg _).trans_le abs_relativeTolerance_le)
  · linarith [log_bounds hx hpositive hlog, toReal_relativeTolerance]

/-- A value from a power of ten up counts as that power at least; the rounding of the logarithm is outweighed by the
    tolerance. -/
theorem le_floor_log (hle : (10 : ℝ) ^ k ≤ x.toReal) : k ≤ (log10 x + relativeTolerance).floor .signed32 := by
  have hexact := (intCast_le_logb_iff (toReal_pos hpositive)).mpr hle
  exact le_floor_log_of_logb hx hpositive hlog hk (by linarith)

/-- A value that stays below a power by three parts in 10⁹ does not count as that power. -/
theorem floor_log_lt (hle : x.toReal * (1 + 3e-9) ≤ 10 ^ k) :
    (log10 x + relativeTolerance).floor .signed32 < k := by
  have hvalue := toReal_pos hpositive
  exact floor_log_lt_of_logb hx hpositive hlog hk (logb_le_of_mul_le hvalue (by linarith))

/-- A value up to a power of ten counts as that power at most. -/
theorem ceil_log_le (hle : x.toReal ≤ 10 ^ k) : (log10 x - relativeTolerance).ceil .signed32 ≤ k := by
  have hexact := (logb_le_intCast_iff (toReal_pos hpositive)).mpr hle
  exact ceil_log_le_of_logb hx hpositive hlog hk (by linarith)

/-- A value above a power by three parts in 10⁹ counts as more than that power. -/
theorem lt_ceil_log (hle : 10 ^ k * (1 + 3e-9) ≤ x.toReal) :
    k < (log10 x - relativeTolerance).ceil .signed32 := by
  have hpower : (0 : ℝ) < 10 ^ k := zpow_pos (by norm_num) k
  exact lt_ceil_log_of_logb hx hpositive hlog hk (le_logb_of_mul_le (by linarith))

/-- Without the tolerance the floor is right for all values that are not just below a power. -/
theorem floor_exact_log_le (hle : Real.logb 10 x.toReal ≤ k + 1 - 1e-9) : (log10 x).floor .signed32 ≤ k := by
  have hless : (log10 x).toReal < ((k + 1 : Int) : ℝ) := by
    push_cast
    linarith [log_bounds hx hpositive hlog]
  have hfloor : ⌊(log10 x).toReal⌋ < k + 1 := Int.floor_lt.mpr hless
  rw [floor_eq_cut hlog.isFinite]
  simp only [IntRange.cut, IntRange.signed32]
  omega

/-- So is the ceiling for those that are not just above one. -/
theorem le_ceil_exact_log (hle : k - 1 + 1e-9 ≤ Real.logb 10 x.toReal) : k ≤ (log10 x).ceil .signed32 := by
  have hless : ((k - 1 : Int) : ℝ) < (log10 x).toReal := by
    push_cast
    linarith [log_bounds hx hpositive hlog]
  have hceil : k - 1 < ⌈(log10 x).toReal⌉ := Int.lt_ceil.mpr hless
  rw [ceil_eq_cut hlog.isFinite]
  simp only [IntRange.cut, IntRange.signed32]
  omega

end Exponents

/-- The exponents are the floor and the ceiling, kept at least one apart. -/
theorem decadeExponents_eq_some {lower upper : Binary64} {first last : Int}
    (hdecades : decadeExponents log10 lower upper = some (first, last)) :
    first = (log10 lower + relativeTolerance).floor .signed32 ∧
      last = max ((log10 upper - relativeTolerance).ceil .signed32) (first + 1) := by
  simp only [decadeExponents] at hdecades
  split at hdecades
  · obtain ⟨rfl, rfl⟩ := Prod.mk.inj (Option.some.inj hdecades)
    exact ⟨rfl, by omega⟩
  · split at hdecades
    · obtain ⟨rfl, rfl⟩ := Prod.mk.inj (Option.some.inj hdecades)
      exact ⟨rfl, by omega⟩
    · cases hdecades

/-- Exponents that the logarithms of a range lie between, to within the tolerance: a value at a power of ten counts as
    that power on either side of the range, and one that misses it by more than three parts in 10⁹ does not. Neither
    end can move inwards unless only one decade is left. -/
structure DecadesAround (lower upper : Binary64) (first last : Int) : Prop where
  first_lt_last : first < last
  first_lt : first - 1.2e-9 < Real.logb 10 lower.toReal
  lt_succ_first : Real.logb 10 lower.toReal < first + 1 - 0.9e-9
  lt_last : Real.logb 10 upper.toReal < last + 1.2e-9
  pred_last_lt : last = first + 1 ∨ last - 1 + 0.9e-9 < Real.logb 10 upper.toReal

section DecadesAround

variable {lower upper : Binary64} {first last : Int} (hlower : lower.isFinite = true) (hupper : upper.isFinite = true)
  (hlower_pos : 0 < lower) (hupper_pos : 0 < upper) (hlower_log : LogAccurate log10 lower)
  (hupper_log : LogAccurate log10 upper)

include hlower hlower_pos hlower_log

/-- No logarithm of a finite, positive number comes near the ends of 32 bits. -/
theorem floor_log_mem :
    -325 ≤ (log10 lower + relativeTolerance).floor .signed32 ∧
      (log10 lower + relativeTolerance).floor .signed32 < 326 := by
  obtain ⟨hbelow, habove⟩ := abs_le.mp (abs_logb_le hlower hlower_pos)
  constructor
  · apply le_floor_log_of_logb hlower hlower_pos hlower_log (by decide)
    push_cast
    linarith
  · apply floor_log_lt_of_logb hlower hlower_pos hlower_log (by decide)
    push_cast
    linarith

/-- There is room for a decade above the least finite number as well as above the greatest. -/
theorem exists_decadeExponents (upper : Binary64) :
    ∃ first last, decadeExponents log10 lower upper = some (first, last) := by
  have hmem := floor_log_mem hlower hlower_pos hlower_log
  have hgreatest : IntRange.signed32.greatest = 0x7FFFFFFF := rfl
  simp only [decadeExponents]
  split
  · exact ⟨_, _, rfl⟩
  · rw [if_pos (by omega)]
    exact ⟨_, _, rfl⟩

include hupper hupper_pos hupper_log

/-- The exponents that are found lie around the range. Only the logarithms at its two ends have to be accurate. -/
theorem decadesAround_of_decadeExponents (hdecades : decadeExponents log10 lower upper = some (first, last)) :
    DecadesAround lower upper first last := by
  obtain ⟨hfirst, hlast⟩ := decadeExponents_eq_some hdecades
  have hmem := floor_log_mem hlower hlower_pos hlower_log
  obtain ⟨hbelow, habove⟩ := abs_le.mp (abs_logb_le hupper hupper_pos)
  have hceil : (log10 upper - relativeTolerance).ceil .signed32 ≤ 325 := by
    apply ceil_log_le_of_logb hupper hupper_pos hupper_log (by decide)
    push_cast
    linarith
  refine ⟨by omega, ?_, ?_, ?_, ?_⟩
  · by_contra hnot
    have hless := floor_log_lt_of_logb (k := first) hlower hlower_pos hlower_log (by omega) (not_lt.mp hnot)
    omega
  · by_contra hnot
    have hle := le_floor_log_of_logb (k := first + 1) hlower hlower_pos hlower_log (by omega)
      (by push_cast; exact not_lt.mp hnot)
    omega
  · by_contra hnot
    have hless := lt_ceil_log_of_logb (k := last) hupper hupper_pos hupper_log (by omega) (not_lt.mp hnot)
    omega
  · rw [or_iff_not_imp_left]
    intro hmore
    by_contra hnot
    have hle := ceil_log_le_of_logb (k := last - 1) hupper hupper_pos hupper_log (by omega)
      (by push_cast; exact not_lt.mp hnot)
    omega

end DecadesAround

end ExperimentCharts
