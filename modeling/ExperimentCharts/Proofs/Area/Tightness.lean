import ExperimentCharts.Proofs.Area.Ranges

namespace ExperimentCharts

open Binary64

/-- Values that have a place on a logarithmic axis. -/
structure HasLogAxis (values : List Binary64) : Prop where
  nonempty : values ≠ []
  isFinite : ∀ value ∈ values, value.isFinite = true
  pos : ∀ value ∈ values, 0 < value

/-- The range consists of the decades from one exponent to another, and none of them could be left out. All values lie
    in it to within three parts in 10⁹, above its lower bound always and below its upper bound unless that is zero. -/
structure TightDecades (values : List Binary64) (range : Binary64 × Binary64) (first last : Int) : Prop where
  first_lt_last : first < last
  range_eq : range = (.powerOfTen first, .powerOfTen last)
  lower_le : ∀ value ∈ values, range.1.toReal ≤ value.toReal * (1 + 3e-9)
  le_upper_iff : (∀ value ∈ values, value.toReal ≤ range.2.toReal * (1 + 3e-9)) ↔ -308 ≤ last
  least_lt : ∃ least ∈ values, (∀ value ∈ values, least ≤ value) ∧ least.toReal < (10 : ℝ) ^ (first + 1)
  lt_greatest : last = first + 1 ∨
    ∃ greatest ∈ values, (∀ value ∈ values, value ≤ greatest) ∧ (10 : ℝ) ^ (last - 1) < greatest.toReal

/-- What the range of an axis comes to: a tight one for values that have an axis, and for all others one of three
    errors. The error for a decade beyond the machine's integers is not among them. -/
structure RangeOutcome (what : String) (values : List Binary64)
    (result : Except ChartError (Binary64 × Binary64)) : Prop where
  isOk_iff : (∃ range, result = .ok range) ↔ HasLogAxis values
  tight : ∀ range, result = .ok range → ∃ first last, TightDecades values range first last
  error_mem : ∀ error, result = .error error →
    error ∈ [AxisFault.notFinite, .notPositive, .noValues].map (AreaData.axisError what)

variable {log10 : Binary64 → Binary64} {values : List Binary64} {lower upper : Binary64} {first last : Int}

/-- The lower bound lies below the least value to within three parts in 10⁹, also where it is computed as zero. -/
theorem DecadesAround.toReal_lower_le (hdecades : DecadesAround lower upper first last) (hpositive : 0 < lower) :
    (powerOfTen first).toReal ≤ lower.toReal * (1 + 3e-9) := by
  have hvalue := toReal_pos hpositive
  have hpower : (10 : ℝ) ^ first < lower.toReal * (1 + 2.9e-9) := by
    by_contra hnot
    have hlog := logb_le_of_mul_le hvalue (not_lt.mp hnot)
    linarith [hdecades.first_lt]
  calc (powerOfTen first).toReal ≤ (1 + 1 / 2 ^ 39) * 10 ^ first := toReal_powerOfTen_le_zpow first
    _ ≤ (1 + 1 / 2 ^ 39) * (lower.toReal * (1 + 2.9e-9)) := by gcongr
    _ = lower.toReal * ((1 + 1 / 2 ^ 39) * (1 + 2.9e-9)) := by ring
    _ ≤ lower.toReal * (1 + 3e-9) := by gcongr; norm_num

/-- The upper bound lies above the greatest value likewise, unless its exponent is below -308. -/
theorem DecadesAround.le_toReal_upper (hdecades : DecadesAround lower upper first last) (hupper : upper.isFinite = true)
    (hlast : -308 ≤ last) : upper.toReal ≤ (powerOfTen last).toReal * (1 + 3e-9) := by
  have hpower : upper.toReal < 10 ^ last * (1 + 2.9e-9) := by
    by_contra hnot
    have hlog := le_logb_of_mul_le (not_lt.mp hnot)
    linarith [hdecades.lt_last]
  rcases le_toReal_powerOfTen_zpow hlast with hinfinite | hclose
  · rw [hinfinite]
    have hless := toReal_lt_infinity hupper
    have hzero : 0 < (infinity false).toReal := by linarith [one_le_toReal one_le_infinity]
    linarith
  · have hexact : (0 : ℝ) < 10 ^ last := zpow_pos (by norm_num) last
    calc upper.toReal ≤ 10 ^ last * (1 + 2.9e-9) := hpower.le
      _ ≤ 10 ^ last * ((1 - 1 / 2 ^ 39) * (1 + 3e-9)) := by gcongr; norm_num
      _ = (1 - 1 / 2 ^ 39) * 10 ^ last * (1 + 3e-9) := by ring
      _ ≤ (powerOfTen last).toReal * (1 + 3e-9) := by gcongr

/-- The first decade holds the least value, so that it could not be left out. -/
theorem DecadesAround.lower_lt_zpow (hdecades : DecadesAround lower upper first last) (hpositive : 0 < lower) :
    lower.toReal < (10 : ℝ) ^ (first + 1) := by
  have hlog : Real.logb 10 lower.toReal < ((first + 1 : Int) : ℝ) := by
    push_cast
    linarith [hdecades.lt_succ_first]
  exact not_le.mp (mt (intCast_le_logb_iff (toReal_pos hpositive)).mpr (not_le.mpr hlog))

/-- Nor could the last one, unless it is the only one. -/
theorem DecadesAround.zpow_lt_upper (hdecades : DecadesAround lower upper first last) (hpositive : 0 < upper)
    (hmore : last ≠ first + 1) : (10 : ℝ) ^ (last - 1) < upper.toReal := by
  have hlog : ((last - 1 : Int) : ℝ) < Real.logb 10 upper.toReal := by
    push_cast
    linarith [hdecades.pred_last_lt.resolve_left hmore]
  exact not_le.mp (mt (logb_le_intCast_iff (toReal_pos hpositive)).mpr (not_le.mpr hlog))

/-- The decades around the least and the greatest of some values are tight for all of them. -/
theorem tightDecades_of_spans {least greatest : Binary64} (hspans : Spans toReal values (least, greatest))
    (hfinite : ∀ value ∈ values, value.isFinite = true) (hpositive : 0 < least)
    (hdecades : DecadesAround least greatest first last) :
    TightDecades values (.powerOfTen first, .powerOfTen last) first last := by
  obtain ⟨hleast, hgreatest, hlower, hupper⟩ := hspans
  have hpositive' : 0 < greatest := Spans.pos ⟨hleast, hgreatest, hlower, hupper⟩ hfinite hpositive greatest hgreatest
  have hnumber (value) (hvalue : value ∈ values) := isNaN_of_isFinite (hfinite value hvalue)
  refine ⟨hdecades.first_lt_last, rfl, ?_, ⟨?_, ?_⟩, ?_, ?_⟩
  · intro value hvalue
    have hleast_le := hlower value hvalue
    exact (hdecades.toReal_lower_le hpositive).trans (by gcongr)
  · -- A last exponent below -308 makes the upper bound zero, and the values are positive.
    intro hbelow
    by_contra hnot
    have hgreatest_le := hbelow greatest hgreatest
    rw [powerOfTen_of_lt (not_le.mp hnot), ← zero_eq, toReal_zero, zero_mul] at hgreatest_le
    exact absurd (toReal_pos hpositive') (not_lt.mpr hgreatest_le)
  · intro hlast value hvalue
    exact (hupper value hvalue).trans (hdecades.le_toReal_upper (hfinite greatest hgreatest) hlast)
  · refine ⟨least, hleast, fun value hvalue => ?_, hdecades.lower_lt_zpow hpositive⟩
    exact (le_iff_toReal (hnumber least hleast) (hnumber value hvalue)).mpr (hlower value hvalue)
  · rw [or_iff_not_imp_left]
    refine fun hmore => ⟨greatest, hgreatest, fun value hvalue => ?_, hdecades.zpow_lt_upper hpositive' hmore⟩
    exact (le_iff_toReal (hnumber value hvalue) (hnumber greatest hgreatest)).mpr (hupper value hvalue)

section Outcome

variable (hlog : ∀ value ∈ values, value.isFinite = true → 0 < value → LogAccurate log10 value)

include hlog

/-- A range is given only to values that have an axis, and it is tight. -/
theorem tightDecades_of_logRange {range : Binary64 × Binary64} (hrange : logRange log10 values = .ok range) :
    HasLogAxis values ∧ ∃ first last, TightDecades values range first last := by
  obtain ⟨hfinite, least, greatest, first, last, hextremes, hpositive, hdecades, rfl⟩ := exists_of_logRange hrange
  have hspans := spans_toReal hextremes hfinite
  have hall := hspans.pos hfinite hpositive
  have hleast := hspans.lower_mem
  have hgreatest := hspans.upper_mem
  refine ⟨⟨List.ne_nil_of_mem hleast, hfinite, hall⟩, first, last, ?_⟩
  apply tightDecades_of_spans hspans hfinite hpositive
  exact decadesAround_of_decadeExponents (hfinite least hleast) (hfinite greatest hgreatest) hpositive
    (hall greatest hgreatest) (hlog least hleast (hfinite least hleast) hpositive)
    (hlog greatest hgreatest (hfinite greatest hgreatest) (hall greatest hgreatest)) hdecades

/-- All values that have an axis are given a range. -/
theorem exists_logRange_of_hasLogAxis (haxis : HasLogAxis values) : ∃ range, logRange log10 values = .ok range := by
  obtain ⟨hnonempty, hfinite, hpositive⟩ := haxis
  obtain ⟨⟨least, greatest⟩, hextremes⟩ := exists_minAndMax hnonempty
  have hleast := (spans_toReal hextremes hfinite).lower_mem
  obtain ⟨first, last, hdecades⟩ := exists_decadeExponents (hfinite least hleast) (hpositive least hleast)
    (hlog least hleast (hfinite least hleast) (hpositive least hleast)) greatest
  have hany : ¬ (values.any fun value => !value.isFinite) = true := by simpa using hfinite
  refine ⟨(.powerOfTen first, .powerOfTen last), ?_⟩
  simp only [logRange, if_neg hany, hextremes, if_pos (hpositive least hleast), decadeBounds, hdecades, Option.map_some]

/-- A range fails by one of the checks on the values; the exponent of the next decade always exists. -/
theorem logRange_ne_noDecade : logRange log10 values ≠ .error .noDecade := by
  intro hfault
  unfold logRange at hfault
  split at hfault
  · cases hfault
  · rename_i hany
    have hfinite : ∀ value ∈ values, value.isFinite = true := by simpa using hany
    split at hfault
    · cases hfault
    · rename_i least greatest hextremes
      split at hfault
      · rename_i hpositive
        have hleast := (spans_toReal hextremes hfinite).lower_mem
        obtain ⟨first, last, hdecades⟩ := exists_decadeExponents (hfinite least hleast) hpositive
          (hlog least hleast (hfinite least hleast) hpositive) greatest
        simp [decadeBounds, hdecades] at hfault
      · cases hfault

theorem rangeOutcome_logRange (what : String) :
    RangeOutcome what values ((logRange log10 values).mapError (AreaData.axisError what)) := by
  constructor
  · constructor
    · rintro ⟨range, hrange⟩
      exact (tightDecades_of_logRange hlog (eq_ok_of_mapError hrange)).1
    · intro haxis
      obtain ⟨range, hrange⟩ := exists_logRange_of_hasLogAxis hlog haxis
      exact ⟨range, by rw [hrange]; rfl⟩
  · intro range hrange
    exact (tightDecades_of_logRange hlog (eq_ok_of_mapError hrange)).2
  · intro error herror
    have hdecade := logRange_ne_noDecade hlog
    cases hresult : logRange log10 values with
    | ok range =>
      rw [hresult] at herror
      cases herror
    | error fault =>
      rw [hresult] at herror hdecade
      cases herror
      cases fault <;> simp_all

end Outcome

namespace AreaData

/-- Both axes have a range exactly if their values allow one, and it is tight; nothing else but the three errors about
    the values comes of it. The logarithms have to be right on values that are finite and positive only. The upper
    bound is the weak point of a tight range: a power below 10⁻³⁰⁸ is computed as zero, so that values down there lie
    above the range that was made for them. -/
theorem ranges_outcome (log10 : Binary64 → Binary64) (data : AreaData) :
    ((∀ value ∈ data.frequency.values, value.isFinite = true → 0 < value → LogAccurate log10 value) →
        RangeOutcome "Frequency" data.frequency.values (data.xRange log10)) ∧
      ((∀ value ∈ data.selective.values ++ data.exhaustive.values,
          value.isFinite = true → 0 < value → LogAccurate log10 value) →
        RangeOutcome "run-time" (data.selective.values ++ data.exhaustive.values) (data.yRange log10)) :=
  ⟨fun hlog => rangeOutcome_logRange hlog "Frequency", fun hlog => rangeOutcome_logRange hlog "run-time"⟩

theorem ranges_sampleArea_tight :
    (sampleArea 1 100).xRange sampleLog = .ok (1, 100) ∧ HasLogAxis [1, 100] ∧
      ∃ first last, TightDecades [1, 100] (1, 100) first last := by
  have hrange : (sampleArea 1 100).xRange sampleLog = .ok (1, 100) := eq_ok_of_toOption (by decide +kernel)
  have hlog : ∀ value ∈ (sampleArea 1 100).frequency.values,
      value.isFinite = true → 0 < value → LogAccurate sampleLog value := by
    simp [sampleArea, logAccurate_sampleLog_one, logAccurate_sampleLog_hundred]
  have houtcome := (ranges_outcome sampleLog (sampleArea 1 100)).1 hlog
  exact ⟨hrange, houtcome.isOk_iff.mp ⟨_, hrange⟩, houtcome.tight _ hrange⟩

/-- Both bounds around 10⁻³¹⁰ are zero, so the value itself lies above its range. -/
theorem sampleArea_above_range :
    LogAccurate sampleLog 1e-310 ∧ HasLogAxis (sampleArea 1e-310 1e-310).frequency.values ∧
      (sampleArea 1e-310 1e-310).xRange sampleLog = .ok (0, 0) ∧
      ¬ (1e-310 : Binary64).toReal ≤ (0 : Binary64).toReal * (1 + 3e-9) := by
  have hpositive : (0 : Binary64) < 1e-310 := by decide +kernel
  refine ⟨logAccurate_sampleLog_small, ⟨by simp [sampleArea], ?_, ?_⟩, eq_ok_of_toOption (by decide +kernel), ?_⟩
  · simp only [sampleArea, List.forall_mem_cons]
    decide +kernel
  · simp [sampleArea, hpositive]
  · rw [toReal_zero, zero_mul, not_le]
    exact toReal_pos hpositive

end AreaData

end ExperimentCharts
