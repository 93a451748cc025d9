import ExperimentCharts.Area.Data
import ExperimentCharts.Proofs.Axis.Decades
import ExperimentCharts.Proofs.Table.Columns
import ExperimentCharts.Proofs.Table.Extremes

namespace ExperimentCharts

open Binary64

/-- The bounds of a logarithmic axis that can be drawn. Powers of ten are finite and positive from 10⁻³⁰⁸ to 10³⁰⁸
    only; values further out pass all checks and leave the axis with a lower bound of zero or an upper bound of
    infinity. -/
structure FitsLogAxis (range : Binary64 × Binary64) : Prop where
  lower_finite : range.1.isFinite = true
  upper_finite : range.2.isFinite = true
  lower_pos : 0 < range.1
  lower_lt_upper : range.1 < range.2

/-- How values decide whether the range around them can be drawn, to within three parts in 10⁹. -/
structure FitsByValues (values : List Binary64) (range : Binary64 × Binary64) : Prop where
  fits : (∀ value ∈ values, (10 : ℝ) ^ (-308 : Int) ≤ value.toReal ∧ value.toReal ≤ (10 : ℝ) ^ (308 : Int)) →
    (∃ value ∈ values, value.toReal * (1 + 3e-9) ≤ (10 : ℝ) ^ (308 : Int)) → FitsLogAxis range
  lower_eq_zero : (∃ value ∈ values, value.toReal * (1 + 3e-9) ≤ (10 : ℝ) ^ (-308 : Int)) → range.1 = zero false
  upper_eq_infinity : (∃ value ∈ values, (10 : ℝ) ^ (308 : Int) * (1 + 3e-9) ≤ value.toReal) ∨
    (∀ value ∈ values, (10 : ℝ) ^ (308 : Int) ≤ value.toReal) → range.2 = infinity false

/-- The range consists of whole decades, which can be drawn or not by their exponents and, as far as the logarithms
    are right, by the values. -/
structure SpansDecades (log10 : Binary64 → Binary64) (values : List Binary64) (range : Binary64 × Binary64) :
    Prop where
  exists_exponents : ∃ first last : Int, first < last ∧ range = (.powerOfTen first, .powerOfTen last) ∧
    (FitsLogAxis range ↔ -308 ≤ first ∧ last ≤ 308)
  fitsByValues : (∀ value ∈ values, LogAccurate log10 value) → FitsByValues values range

variable {log10 : Binary64 → Binary64} {values : List Binary64} {range : Binary64 × Binary64} {first last : Int}

/-- Two powers of ten bound an axis exactly if their exponents are in range. -/
theorem fitsLogAxis_powers_iff (hless : first < last) :
    FitsLogAxis (.powerOfTen first, .powerOfTen last) ↔ -308 ≤ first ∧ last ≤ 308 := by
  constructor
  · rintro ⟨-, hfinite, hpositive, -⟩
    exact ⟨le_exponent_of_pos hpositive, exponent_le_of_isFinite hfinite⟩
  · rintro ⟨hlow, hhigh⟩
    exact ⟨(powerOfTen_close hlow (by omega)).1, (powerOfTen_close (by omega) hhigh).1,
      powerOfTen_pos hlow (by omega), powerOfTen_lt hlow hless hhigh⟩

/-- What a range tells about its values: they are finite, the least is positive, and the bounds are the powers of the
    exponents around them. -/
theorem exists_of_logRange (hrange : logRange log10 values = .ok range) :
    (∀ value ∈ values, value.isFinite = true) ∧ ∃ least greatest first last,
      minAndMax values = some (least, greatest) ∧ 0 < least ∧
        decadeExponents log10 least greatest = some (first, last) ∧
        range = (.powerOfTen first, .powerOfTen last) := by
  unfold logRange at hrange
  split at hrange
  · cases hrange
  · rename_i hfinite
    refine ⟨by simpa using hfinite, ?_⟩
    split at hrange
    · cases hrange
    · rename_i least greatest hextremes
      split at hrange
      · rename_i hpositive
        split at hrange
        · rename_i bounds hbounds
          obtain ⟨⟨first, last⟩, hdecades, rfl⟩ := Option.map_eq_some_iff.mp hbounds
          exact ⟨least, greatest, first, last, hextremes, hpositive, hdecades, (Except.ok.inj hrange).symm⟩
        · cases hrange
      · cases hrange

/-- The least and the greatest of finite values have all the others between them. -/
theorem spans_toReal {least greatest : Binary64} (hextremes : minAndMax values = some (least, greatest))
    (hfinite : ∀ value ∈ values, value.isFinite = true) : Spans toReal values (least, greatest) := by
  apply spans_of_minAndMax hextremes
  intro value hvalue other hother
  exact lt_iff_toReal (isNaN_of_isFinite (hfinite value hvalue)) (isNaN_of_isFinite (hfinite other hother))

/-- If the least of some values is positive, all are. -/
theorem Spans.pos {least greatest : Binary64} (hspans : Spans toReal values (least, greatest))
    (hfinite : ∀ value ∈ values, value.isFinite = true) (hpositive : 0 < least) : ∀ value ∈ values, 0 < value := by
  intro value hvalue
  rw [pos_iff_toReal (isNaN_of_isFinite (hfinite value hvalue))]
  exact (toReal_pos hpositive).trans_le (hspans.lower_le value hvalue)

/-- With logarithms that are accurate on the values, these decide what can be drawn. -/
theorem fitsByValues_of_spans {least greatest : Binary64} (hfinite : ∀ value ∈ values, value.isFinite = true)
    (hlog : ∀ value ∈ values, LogAccurate log10 value) (hpositive : 0 < least)
    (hspans : Spans toReal values (least, greatest))
    (hdecades : decadeExponents log10 least greatest = some (first, last)) :
    FitsByValues values (.powerOfTen first, .powerOfTen last) := by
  obtain ⟨hleast, hgreatest, hlower, hupper⟩ := hspans
  obtain ⟨hfirst, hlast⟩ := decadeExponents_eq_some hdecades
  have hpositive' := Spans.pos ⟨hleast, hgreatest, hlower, hupper⟩ hfinite hpositive greatest hgreatest
  have hscaled (value) (hvalue : value ∈ values) : least.toReal * (1 + 3e-9) ≤ value.toReal * (1 + 3e-9) :=
    mul_le_mul_of_nonneg_right (hlower value hvalue) (by norm_num)
  constructor
  · rintro hbounds ⟨value, hvalue, hbelow⟩
    have hlow := le_floor_log (hfinite least hleast) hpositive (hlog least hleast) (by decide)
      (hbounds least hleast).1
    have hhigh := ceil_log_le (hfinite greatest hgreatest) hpositive' (hlog greatest hgreatest) (by decide)
      (hbounds greatest hgreatest).2
    -- One decade more than the least value takes must still be in range.
    have hnext := floor_log_lt (hfinite least hleast) hpositive (hlog least hleast) (by decide)
      ((hscaled value hvalue).trans hbelow)
    rw [fitsLogAxis_powers_iff (by omega)]
    omega
  · rintro ⟨value, hvalue, hbelow⟩
    have hlow := floor_log_lt (hfinite least hleast) hpositive (hlog least hleast) (by decide)
      ((hscaled value hvalue).trans hbelow)
    exact powerOfTen_of_lt (by omega)
  · rintro (⟨value, hvalue, habove⟩ | hall)
    · have hhigh := lt_ceil_log (hfinite greatest hgreatest) hpositive' (hlog greatest hgreatest) (by decide)
        (habove.trans (hupper value hvalue))
      exact powerOfTen_of_gt (by omega)
    · have hlow := le_floor_log (hfinite least hleast) hpositive (hlog least hleast) (by decide) (hall least hleast)
      exact powerOfTen_of_gt (by omega)

/-- Every range is one of whole decades. Nothing is asked of the logarithms for that. -/
theorem spansDecades_of_logRange (hrange : logRange log10 values = .ok range) : SpansDecades log10 values range := by
  obtain ⟨hfinite, least, greatest, first, last, hextremes, hpositive, hdecades, rfl⟩ := exists_of_logRange hrange
  have hless : first < last := by
    obtain ⟨-, hlast⟩ := decadeExponents_eq_some hdecades
    omega
  have hspans := spans_toReal hextremes hfinite
  exact ⟨⟨first, last, hless, rfl, fitsLogAxis_powers_iff hless⟩,
    fun hlog => fitsByValues_of_spans hfinite hlog hpositive hspans hdecades⟩

theorem eq_ok_of_mapError {ε ε' α : Type} {f : ε → ε'} {result : Except ε α} {a : α}
    (hresult : result.mapError f = .ok a) : result = .ok a := by
  cases result with
  | error error => cases hresult
  | ok value => cases hresult; rfl

namespace AreaData

/-- The bounds of an axis are powers of ten, the lower one first. They can be drawn exactly when their exponents lie
    from -308 to 308, which values near the ends of the format's range do not grant. -/
theorem ranges_spanDecades (log10 : Binary64 → Binary64) (data : AreaData) (range : Binary64 × Binary64) :
    (data.xRange log10 = .ok range → SpansDecades log10 data.frequency.values range) ∧
      (data.yRange log10 = .ok range →
        SpansDecades log10 (data.selective.values ++ data.exhaustive.values) range) :=
  ⟨fun hrange => spansDecades_of_logRange (eq_ok_of_mapError hrange),
    fun hrange => spansDecades_of_logRange (eq_ok_of_mapError hrange)⟩

/-- Run-times at two frequencies. -/
def sampleArea (lower upper : Binary64) : AreaData :=
  { frequency := ⟨"frequency", [lower, upper]⟩
    selective := ⟨⟨"smin", [1, 1]⟩, ⟨"smed", [1, 1]⟩, ⟨"smax", [1, 1]⟩⟩
    exhaustive := ⟨⟨"emin", [2, 2]⟩, ⟨"emed", [2, 2]⟩, ⟨"emax", [2, 2]⟩⟩ }

/-- The logarithms of the frequencies in the samples. -/
def sampleLog (x : Binary64) : Binary64 := if x = 1e-310 then -310 else if x = 100 then 2 else 0

theorem logAccurate_sampleLog_one : LogAccurate sampleLog 1 := by
  have hlog : sampleLog 1 = 0 := by decide +kernel
  constructor
  · rw [hlog, zero_eq]
    decide
  · simp [hlog, toReal_zero, toReal_one]

theorem toReal_hundred : (100 : Binary64).toReal = 100 := by
  have hhundred := @toReal_natCast 100 (by decide)
  rwa [Nat.cast_ofNat] at hhundred

theorem logAccurate_sampleLog_hundred : LogAccurate sampleLog 100 := by
  have hlog : sampleLog 100 = 2 := by decide +kernel
  have htwo := @toReal_natCast 2 (by decide)
  rw [Nat.cast_ofNat] at htwo
  apply logAccurate_of_close (k := 2)
  · norm_num
  · rw [hlog]
    decide +kernel
  · rw [hlog, Int.cast_ofNat]
    exact htwo
  · rw [toReal_hundred]
    norm_num

theorem logAccurate_sampleLog_small : LogAccurate sampleLog 1e-310 := by
  have hlog : sampleLog 1e-310 = -310 := by decide +kernel
  have hvalue := @toReal_natCast 310 (by decide)
  rw [Nat.cast_ofNat] at hvalue
  have hnumber : (1e-310 : Binary64) = .number false ⟨20240225330731, by decide⟩ := by decide +kernel
  have hbelow : units 20240225330731 * 10 ^ 310 ≤ unitsPerOne := by decide +kernel
  have habove : 2 ^ 55 * unitsPerOne ≤ 2 ^ 55 * (units 20240225330731 * 10 ^ 310) + 310 * unitsPerOne := by
    decide +kernel
  have hratio : (1e-310 : Binary64).toReal / 10 ^ (-310 : Int) =
      ((units 20240225330731 * 10 ^ 310 : Nat) : ℝ) / unitsPerOne := by
    rw [hnumber, toReal_number_false, zpow_neg, div_inv_eq_mul, Nat.cast_mul, Nat.cast_pow, div_mul_eq_mul_div]
    rfl
  apply logAccurate_of_close (k := -310)
  · norm_num
  · rw [hlog]
    decide +kernel
  · rw [hlog, toReal_neg]
    push_cast
    exact congrArg (- ·) hvalue
  · rw [hratio]
    generalize units 20240225330731 * 10 ^ 310 = amount at *
    rify at hbelow habove
    have hunit := unitsPerOne_cast_pos
    have hupper := (div_le_one hunit).mpr hbelow
    have hlower : 1 - 310 / 2 ^ 55 ≤ (amount : ℝ) / unitsPerOne := by
      rw [le_div_iff₀ hunit]
      linarith
    have hsize : |((-310 : Int) : ℝ)| = 310 := by norm_num
    rw [hsize]
    exact abs_le.mpr ⟨by linarith, by linarith⟩

/-- The axis around values from 1 to 100 can be drawn. -/
theorem ranges_sampleArea_fit :
    (sampleArea 1 100).xRange sampleLog = .ok (1, 100) ∧ FitsLogAxis (1, 100) := by
  have hrange : (sampleArea 1 100).xRange sampleLog = .ok (1, 100) := eq_ok_of_toOption (by decide +kernel)
  have hlog : ∀ value ∈ (sampleArea 1 100).frequency.values, LogAccurate sampleLog value := by
    simp [sampleArea, logAccurate_sampleLog_one, logAccurate_sampleLog_hundred]
  have hspans := (ranges_spanDecades sampleLog (sampleArea 1 100) (1, 100)).1 hrange
  have hlow : (10 : ℝ) ^ (-308 : Int) ≤ 1 := zpow_le_one_of_nonpos₀ (by norm_num) (by norm_num)
  have hhigh : (1000 : ℝ) ≤ 10 ^ (308 : Int) := by
    calc (1000 : ℝ) = 10 ^ (3 : Int) := by norm_num
      _ ≤ 10 ^ (308 : Int) := zpow_le_zpow_right₀ (by norm_num) (by norm_num)
  refine ⟨hrange, (hspans.fitsByValues hlog).fits ?_ ?_⟩
  · simp only [sampleArea, List.forall_mem_cons, toReal_one, toReal_hundred]
    exact ⟨⟨hlow, le_trans (by norm_num) hhigh⟩, ⟨hlow.trans (by norm_num), le_trans (by norm_num) hhigh⟩, by simp⟩
  · refine ⟨1, by simp [sampleArea], ?_⟩
    rw [toReal_one]
    exact le_trans (by norm_num) hhigh

/-- The format has numbers near 10⁻³¹⁰, but an axis around one starts at zero. -/
theorem sampleArea_lower_zero :
    LogAccurate sampleLog 1e-310 ∧ LogAccurate sampleLog 1 ∧
      (sampleArea 1e-310 1).xRange sampleLog = .ok (0, 1) ∧ ¬ FitsLogAxis (0, 1) := by
  refine ⟨logAccurate_sampleLog_small, logAccurate_sampleLog_one, eq_ok_of_toOption (by decide +kernel), ?_⟩
  intro hfits
  exact absurd ((pos_iff_toReal rfl).mp hfits.lower_pos) (by simp [toReal_zero])

end AreaData

end ExperimentCharts
