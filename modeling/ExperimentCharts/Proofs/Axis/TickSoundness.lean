import ExperimentCharts.Proofs.Axis.AccurateLog
import ExperimentCharts.Proofs.Axis.Multiples
import Mathlib.Data.List.Perm.Basic

namespace ExperimentCharts

open Binary64

/-- A range that ticks are looked for in. -/
structure IsTickRange (lower upper : Binary64) : Prop where
  lower_pos : 0 < lower
  lower_le_upper : lower ≤ upper
  upper_finite : upper.isFinite = true

/-- The ticks are finite and positive, lie in the range to within two parts in 10⁹, and ascend strictly when put in
    order. -/
structure SoundTicks (lower upper : Binary64) (ticks : LogTicks) : Prop where
  isFinite : ∀ value ∈ ticks.major ++ ticks.minor, value.isFinite = true
  pos : ∀ value ∈ ticks.major ++ ticks.minor, 0 < value
  lower_le : ∀ value ∈ ticks.major ++ ticks.minor, lower.toReal * (1 - 2e-9) ≤ value.toReal
  le_upper : ∀ value ∈ ticks.major ++ ticks.minor, value.toReal ≤ upper.toReal * (1 + 2e-9)
  nodup : ticks.all.Nodup
  ascending : ticks.all.Pairwise fun value next => value < next

/-- A tick is kept for its value: it lies between the bounds, each moved outwards by the tolerance and rounded. -/
theorem inRange_iff {lower upper value : Binary64} :
    inRange lower upper value = true ↔
      lower * (1 - relativeTolerance) ≤ value ∧ value ≤ upper * (1 + relativeTolerance) := by
  simp [inRange]

theorem one_sub_relativeTolerance_eq :
    1 - relativeTolerance = .number false ⟨0x3FEFFFFFFF768FA1, by decide⟩ := by
  decide +kernel

theorem one_add_relativeTolerance_eq :
    1 + relativeTolerance = .number false ⟨0x3FF000000044B830, by decide⟩ := by
  decide +kernel

/-- Lowering takes away little more than a part in 10⁹. -/
theorem toReal_one_sub_relativeTolerance :
    1 - 1.1e-9 ≤ (1 - relativeTolerance).toReal ∧ (1 - relativeTolerance).toReal ≤ 1 := by
  have hlower : 10 ^ 10 * unitsPerOne ≤ 10 ^ 10 * units 0x3FEFFFFFFF768FA1 + 11 * unitsPerOne := by decide +kernel
  have hupper : units 0x3FEFFFFFFF768FA1 ≤ unitsPerOne := by decide +kernel
  rw [one_sub_relativeTolerance_eq, toReal_number_false, le_div_iff₀ unitsPerOne_cast_pos,
    div_le_iff₀ unitsPerOne_cast_pos]
  rify at hlower hupper
  constructor <;> linarith

/-- Raising adds little more than a part in 10⁹. -/
theorem toReal_one_add_relativeTolerance :
    1 ≤ (1 + relativeTolerance).toReal ∧ (1 + relativeTolerance).toReal ≤ 1 + 1.1e-9 := by
  have hlower : unitsPerOne ≤ units 0x3FF000000044B830 := by decide +kernel
  have hupper : 10 ^ 10 * units 0x3FF000000044B830 ≤ (10 ^ 10 + 11) * unitsPerOne := by decide +kernel
  rw [one_add_relativeTolerance_eq, toReal_number_false, le_div_iff₀ unitsPerOne_cast_pos,
    div_le_iff₀ unitsPerOne_cast_pos]
  rify at hlower hupper
  constructor <;> linarith

theorem isFinite_one_sub_relativeTolerance : (1 - relativeTolerance).isFinite = true := by
  rw [one_sub_relativeTolerance_eq]
  decide

theorem isFinite_one_add_relativeTolerance : (1 + relativeTolerance).isFinite = true := by
  rw [one_add_relativeTolerance_eq]
  decide

theorem one_sub_relativeTolerance_pos : 0 < 1 - relativeTolerance := by
  rw [pos_iff_toReal (isNaN_of_isFinite isFinite_one_sub_relativeTolerance)]
  linarith [toReal_one_sub_relativeTolerance.1]

theorem one_add_relativeTolerance_pos : 0 < 1 + relativeTolerance := by
  rw [pos_iff_toReal (isNaN_of_isFinite isFinite_one_add_relativeTolerance)]
  linarith [toReal_one_add_relativeTolerance.1]

section Tolerance

variable {x : Binary64} (hx : 0 < x) (hfinite : x.isFinite = true)

include hx hfinite

/-- A lowered number stays positive, even the smallest one. -/
theorem lowered_pos : 0 < x * (1 - relativeTolerance) := by
  apply mul_pos_of_half_lt hx one_sub_relativeTolerance_pos hfinite isFinite_one_sub_relativeTolerance
  linarith [toReal_one_sub_relativeTolerance.1]

/-- Lowering does not raise a number, in spite of the rounding. -/
theorem toReal_lowered_le : (x * (1 - relativeTolerance)).toReal ≤ x.toReal := by
  apply toReal_mul_le_of_le hx one_sub_relativeTolerance_pos hfinite isFinite_one_sub_relativeTolerance
    (isNaN_of_isFinite hfinite)
  exact mul_le_of_le_one_right (toReal_pos hx).le toReal_one_sub_relativeTolerance.2

theorem isFinite_lowered : (x * (1 - relativeTolerance)).isFinite = true := by
  refine (eq_infinity_or_isFinite (lowered_pos hx hfinite)).resolve_left fun hinfinite => ?_
  have hle := toReal_lowered_le hx hfinite
  rw [hinfinite] at hle
  exact absurd (toReal_lt_infinity hfinite) (not_lt.mpr hle)

/-- A number that is not tiny is lowered by two parts in 10⁹ at most, rounding included. -/
theorem le_toReal_lowered (hlarge : 2 ^ 41 ≤ x.toReal * unitsPerOne) :
    x.toReal * (1 - 2e-9) ≤ (x * (1 - relativeTolerance)).toReal := by
  obtain ⟨hfactor, -⟩ := toReal_one_sub_relativeTolerance
  have hvalue := toReal_pos hx
  have hproduct : 2 ^ 40 ≤ x.toReal * (1 - relativeTolerance).toReal * unitsPerOne := by
    rw [mul_right_comm]
    generalize x.toReal * (unitsPerOne : ℝ) = amount at *
    nlinarith
  have hbound := le_toReal_mul_of_large hx one_sub_relativeTolerance_pos hfinite isFinite_one_sub_relativeTolerance
    (show 40 ≤ 52 by decide) hproduct (isFinite_lowered hx hfinite)
  calc x.toReal * (1 - 2e-9) ≤ x.toReal * ((1 - 1 / 2 ^ 41) * (1 - 1.1e-9)) :=
        mul_le_mul_of_nonneg_left (by norm_num) hvalue.le
    _ ≤ x.toReal * ((1 - 1 / 2 ^ 41) * (1 - relativeTolerance).toReal) :=
        mul_le_mul_of_nonneg_left (mul_le_mul_of_nonneg_left hfactor (by norm_num)) hvalue.le
    _ = (1 - 1 / 2 ^ 41) * (x.toReal * (1 - relativeTolerance).toReal) := by ring
    _ ≤ (x * (1 - relativeTolerance)).toReal := hbound

/-- A raised number may overflow, but it is a number. -/
theorem isNaN_raised : (x * (1 + relativeTolerance)).isNaN = false :=
  isNaN_mul hx one_add_relativeTolerance_pos hfinite isFinite_one_add_relativeTolerance

/-- Raising does not lower a number, in spite of the rounding. -/
theorem le_toReal_raised : x.toReal ≤ (x * (1 + relativeTolerance)).toReal := by
  apply le_toReal_mul_of_le hx one_add_relativeTolerance_pos hfinite isFinite_one_add_relativeTolerance
    (isNaN_of_isFinite hfinite)
  exact le_mul_of_one_le_right (toReal_pos hx).le toReal_one_add_relativeTolerance.1

theorem raised_pos : 0 < x * (1 + relativeTolerance) := by
  rw [pos_iff_toReal (isNaN_raised hx hfinite)]
  exact (toReal_pos hx).trans_le (le_toReal_raised hx hfinite)

/-- A raised number that is not tiny is raised by two parts in 10⁹ at most, rounding included. -/
theorem toReal_raised_le (hlarge : 2 ^ 41 ≤ (x * (1 + relativeTolerance)).toReal * unitsPerOne) :
    (x * (1 + relativeTolerance)).toReal ≤ x.toReal * (1 + 2e-9) := by
  have hvalue := toReal_pos hx
  have hproduct : 2 ^ 40 ≤ x.toReal * (1 + relativeTolerance).toReal * unitsPerOne := by
    by_contra hsmall
    obtain ⟨bound, hbound, hamount⟩ := exists_toReal_eq (m := 1) (by decide) (show 1034 ≤ 1074 by decide)
    have hunits : unitsPerOne = 2 ^ 40 * 2 ^ 1034 := by rw [unitsPerOne_eq, ← pow_add]
    have hscale : (2 : ℝ) ^ 40 = bound.toReal * unitsPerOne := by
      rw [hamount, Int.cast_one, hunits, Nat.cast_mul, Nat.cast_pow, Nat.cast_pow, Nat.cast_ofNat, one_div_mul_eq_div,
        mul_div_cancel_right₀ _ (by positivity)]
    rw [hscale, not_le, mul_lt_mul_iff_left₀ unitsPerOne_cast_pos] at hsmall
    have hle := toReal_mul_le_of_le hx one_add_relativeTolerance_pos hfinite isFinite_one_add_relativeTolerance
      (isNaN_of_isFinite hbound) hsmall.le
    have hless := hlarge.trans (mul_le_mul_of_nonneg_right hle unitsPerOne_cast_pos.le)
    rw [← hscale] at hless
    norm_num at hless
  have hbound := toReal_mul_le_of_large hx one_add_relativeTolerance_pos hfinite isFinite_one_add_relativeTolerance
    (show 40 ≤ 52 by decide) hproduct
  calc (x * (1 + relativeTolerance)).toReal
      ≤ (1 + 1 / 2 ^ 41) * (x.toReal * (1 + relativeTolerance).toReal) := hbound
    _ ≤ (1 + 1 / 2 ^ 41) * (x.toReal * (1 + 1.1e-9)) := by
        gcongr
        exact toReal_one_add_relativeTolerance.2
    _ = x.toReal * ((1 + 1 / 2 ^ 41) * (1 + 1.1e-9)) := by ring
    _ ≤ x.toReal * (1 + 2e-9) := by gcongr; norm_num

end Tolerance

variable {log10 : Binary64 → Binary64} {lower upper value : Binary64} {exponents : List Int}

/-- The lower end of such a range is finite, since it is below the upper one. -/
theorem IsTickRange.lower_finite (hrange : IsTickRange lower upper) : lower.isFinite = true := by
  refine (eq_infinity_or_isFinite hrange.lower_pos).resolve_left fun hinfinite => ?_
  have hle := hrange.lower_le_upper
  rw [hinfinite, le_iff_toReal rfl (isNaN_of_isFinite hrange.upper_finite)] at hle
  exact absurd (toReal_lt_infinity hrange.upper_finite) (not_lt.mpr hle)

theorem IsTickRange.upper_pos (hrange : IsTickRange lower upper) : 0 < upper := by
  have hnumber := isNaN_of_isFinite hrange.upper_finite
  rw [pos_iff_toReal hnumber]
  exact (toReal_pos hrange.lower_pos).trans_le
    ((le_iff_toReal (isNaN_of_isFinite hrange.lower_finite) hnumber).mp hrange.lower_le_upper)

section Kept

variable (hrange : IsTickRange lower upper) (hraised : (upper * (1 + relativeTolerance)).isFinite = true)
  (hkept : inRange lower upper value = true)

include hrange hkept

/-- What is kept is positive, because the lowered bound is. -/
theorem pos_of_inRange : 0 < value := by
  obtain ⟨hlower, -⟩ := inRange_iff.mp hkept
  obtain ⟨hnumber, hnumber'⟩ := isNaN_of_le hlower
  rw [pos_iff_toReal hnumber']
  exact (toReal_pos (lowered_pos hrange.lower_pos hrange.lower_finite)).trans_le
    ((le_iff_toReal hnumber hnumber').mp hlower)

include hraised

theorem isFinite_of_inRange : value.isFinite = true := by
  refine (eq_infinity_or_isFinite (pos_of_inRange hrange hkept)).resolve_left fun hinfinite => ?_
  obtain ⟨-, hupper⟩ := inRange_iff.mp hkept
  rw [hinfinite, le_iff_toReal rfl (isNaN_of_isFinite hraised)] at hupper
  exact absurd (toReal_lt_infinity hraised) (not_lt.mpr hupper)

/-- What is kept lies in the range to within two parts in 10⁹, if it is not tiny. -/
theorem toReal_mem_of_inRange (hlarge : 2 ^ 41 ≤ value.toReal * unitsPerOne) :
    lower.toReal * (1 - 2e-9) ≤ value.toReal ∧ value.toReal ≤ upper.toReal * (1 + 2e-9) := by
  have hvalue := isNaN_of_isFinite (isFinite_of_inRange hrange hraised hkept)
  obtain ⟨hlowered, hle_raised⟩ := inRange_iff.mp hkept
  rw [le_iff_toReal (isNaN_of_le hlowered).1 hvalue] at hlowered
  rw [le_iff_toReal hvalue (isNaN_of_isFinite hraised)] at hle_raised
  constructor
  · rcases le_or_gt lower.toReal value.toReal with hle | hmore
    · linarith [toReal_pos hrange.lower_pos]
    · have hscaled := hlarge.trans (mul_le_mul_of_nonneg_right hmore.le unitsPerOne_cast_pos.le)
      exact (le_toReal_lowered hrange.lower_pos hrange.lower_finite hscaled).trans hlowered
  · have hscaled := hlarge.trans (mul_le_mul_of_nonneg_right hle_raised unitsPerOne_cast_pos.le)
    exact hle_raised.trans (toReal_raised_le hrange.upper_pos hrange.upper_finite hscaled)

end Kept

theorem mem_integersBetween_iff {first last k : Int} : k ∈ integersBetween first last ↔ first ≤ k ∧ k ≤ last := by
  simp only [integersBetween, List.mem_map, List.mem_range]
  constructor
  · rintro ⟨offset, hoffset, rfl⟩
    omega
  · rintro ⟨hfirst, hlast⟩
    exact ⟨(k - first).toNat, by omega, by omega⟩

theorem integersBetween_pairwise (first last : Int) : (integersBetween first last).Pairwise (· < ·) := by
  rw [integersBetween, List.pairwise_map]
  exact List.pairwise_lt_range.imp fun hless => by omega

/-- The ticks of ascending decades ascend, whichever finite and positive ones are kept. -/
theorem pairwise_ticks (hexponents : exponents.Pairwise (· < ·)) {keep : Binary64 → Bool}
    (hkeep : ∀ value, keep value = true → value.isFinite = true ∧ 0 < value) :
    (exponents.flatMap fun exponent => (decadeTicks exponent).filter keep).Pairwise fun value next => value < next := by
  have hkept {factor : Nat} {exponent : Int} (hone : 1 ≤ factor) (hnine : factor ≤ 9)
      (htick : keep (tick factor exponent) = true) :
      (tick factor exponent).isFinite = true ∧ -308 ≤ exponent ∧ exponent ≤ 308 := by
    obtain ⟨hfinite, hpositive⟩ := hkeep _ htick
    exact ⟨hfinite, exponent_mem_of_tick hone hnine hfinite hpositive⟩
  rw [List.pairwise_flatMap]
  constructor
  · intro exponent _
    rw [decadeTicks, List.filter_map, List.pairwise_map]
    refine List.Pairwise.imp_of_mem ?_ (List.Pairwise.filter _ List.pairwise_lt_range')
    intro factor other hfactor hother hless
    simp only [List.mem_filter, List.mem_range'_1, Function.comp_apply] at hfactor hother
    obtain ⟨hfinite, hlower, hupper⟩ := hkept (by omega) (by omega) hfactor.2
    obtain ⟨hfinite', -, -⟩ := hkept (by omega) (by omega) hother.2
    exact tick_lt (by omega) (by omega) (by omega) (by omega) hlower hupper (.inr ⟨rfl, hless⟩) hfinite hfinite'
  · apply hexponents.imp
    intro exponent later hless value hvalue next hnext
    obtain ⟨hvalue, hvalue_kept⟩ := List.mem_filter.mp hvalue
    obtain ⟨hnext, hnext_kept⟩ := List.mem_filter.mp hnext
    obtain ⟨factor, hone, hnine, rfl⟩ := mem_decadeTicks_iff.mp hvalue
    obtain ⟨other, hone', hnine', rfl⟩ := mem_decadeTicks_iff.mp hnext
    obtain ⟨hfinite, hlower, -⟩ := hkept hone hnine hvalue_kept
    obtain ⟨hfinite', -, hupper⟩ := hkept hone' hnine' hnext_kept
    exact tick_lt hone hnine hone' hnine' hlower hupper (.inl hless) hfinite hfinite'

/-- The exponents of the powers of ten that are looked at. -/
def tickExponents (log10 : Binary64 → Binary64) (lower upper : Binary64) : List Int :=
  integersBetween ((log10 lower).floor .signed32) ((log10 upper).ceil .signed32)

/-- Other ranges have no ticks at all. -/
theorem logTicks_of_not_isTickRange (hnot : ¬ IsTickRange lower upper) : logTicks log10 lower upper = ⟨[], []⟩ := by
  rw [logTicks, if_neg]
  rintro ⟨hpositive, hle, hfinite⟩
  exact hnot ⟨hpositive, hle, hfinite⟩

theorem filter_map_eq_flatMap {α β : Type} (f : α → β) (keep : β → Bool) (l : List α) :
    (l.map f).filter keep = l.flatMap fun a => [f a].filter keep := by
  induction l with
  | nil => rfl
  | cons a l ih => rw [List.map_cons, List.flatMap_cons, ← ih, ← List.filter_append]; rfl

/-- The ticks of each decade that are kept, decade by decade. -/
theorem logTicks_eq (hrange : IsTickRange lower upper) :
    logTicks log10 lower upper =
      { major := (tickExponents log10 lower upper).flatMap fun exponent =>
          [powerOfTen exponent].filter (inRange lower upper)
        minor := (tickExponents log10 lower upper).flatMap fun exponent =>
          (multiples (.powerOfTen exponent)).filter (inRange lower upper) } := by
  rw [logTicks, if_pos ⟨hrange.lower_pos, hrange.lower_le_upper, hrange.upper_finite⟩]
  simp only [List.flatMap_map, filter_map_eq_flatMap]
  rfl

/-- Major and minor ticks together are those of all decades that are looked through, as far as they are kept. -/
theorem logTicks_perm (hrange : IsTickRange lower upper) :
    ((logTicks log10 lower upper).major ++ (logTicks log10 lower upper).minor).Perm
      ((tickExponents log10 lower upper).flatMap fun exponent =>
        (decadeTicks exponent).filter (inRange lower upper)) := by
  rw [logTicks_eq hrange]
  refine (List.flatMap_append_perm _ _ _).trans (List.Perm.of_eq (List.flatMap_congr fun exponent _ => ?_))
  rw [← List.filter_append, decadeTicks_eq]
  rfl

section Sound

variable (hrange : IsTickRange lower upper) (hraised : (upper * (1 + relativeTolerance)).isFinite = true)

include hrange hraised

/-- Taken decade by decade, the ticks that are kept ascend. The logarithms have no part in it. -/
theorem pairwise_kept (log10 : Binary64 → Binary64) :
    ((tickExponents log10 lower upper).flatMap fun exponent =>
      (decadeTicks exponent).filter (inRange lower upper)).Pairwise fun value next => value < next :=
  pairwise_ticks (integersBetween_pairwise _ _) fun _ hkept =>
    ⟨isFinite_of_inRange hrange hraised hkept, pos_of_inRange hrange hkept⟩

/-- Put in order, all ticks are those that are kept, decade by decade. -/
theorem all_logTicks :
    (logTicks log10 lower upper).all =
      (tickExponents log10 lower upper).flatMap fun exponent =>
        (decadeTicks exponent).filter (inRange lower upper) := by
  rw [LogTicks.all, sorted_eq_of_perm (logTicks_perm hrange)]
  exact List.mergeSort_of_pairwise ((pairwise_kept hrange hraised log10).imp totalLe_of_lt)

/-- The ticks are sound as long as the upper end can be raised and stays finite. -/
theorem soundTicks_logTicks : SoundTicks lower upper (logTicks log10 lower upper) := by
  have hkept {value : Binary64}
      (hvalue : value ∈ (logTicks log10 lower upper).major ++ (logTicks log10 lower upper).minor) :
      inRange lower upper value = true ∧ 2 ^ 41 ≤ value.toReal * unitsPerOne := by
    obtain ⟨exponent, -, hmem⟩ := List.mem_flatMap.mp ((logTicks_perm hrange).mem_iff.mp hvalue)
    obtain ⟨htick, hkept⟩ := List.mem_filter.mp hmem
    obtain ⟨factor, hone, hnine, rfl⟩ := mem_decadeTicks_iff.mp htick
    have hfinite := isFinite_of_inRange hrange hraised hkept
    obtain ⟨hlow, hhigh⟩ := exponent_mem_of_tick hone hnine hfinite (pos_of_inRange hrange hkept)
    exact ⟨hkept, two_pow_le_toReal_tick hone hnine hlow hhigh hfinite⟩
  have hascending := pairwise_kept hrange hraised log10
  rw [← all_logTicks hrange hraised] at hascending
  refine ⟨?_, ?_, ?_, ?_, hascending.imp ?_, hascending⟩ <;> intro value hvalue
  · exact isFinite_of_inRange hrange hraised (hkept hvalue).1
  · exact pos_of_inRange hrange (hkept hvalue).1
  · exact (toReal_mem_of_inRange hrange hraised (hkept hvalue).1 (hkept hvalue).2).1
  · exact (toReal_mem_of_inRange hrange hraised (hkept hvalue).1 (hkept hvalue).2).2
  · rintro hless rfl
    exact lt_asymm hless hless

end Sound

section Infinite

variable (hrange : IsTickRange lower upper) (hraised : ¬ (upper * (1 + relativeTolerance)).isFinite = true)

include hrange hraised

/-- An upper end that cannot be raised is raised to infinity. -/
theorem raised_eq_infinity : upper * (1 + relativeTolerance) = infinity false :=
  (eq_infinity_or_isFinite (raised_pos hrange.upper_pos hrange.upper_finite)).resolve_right hraised

/-- Only numbers well above 10³⁰⁸ are raised to infinity. -/
theorem zpow_mul_le_upper : (10 : ℝ) ^ (308 : Int) * (1 + 2.9e-9) ≤ upper.toReal := by
  have hinfinity := raised_eq_infinity hrange hraised
  have hlarge : (10 : ℝ) ^ 308 * 1.5 < (infinity false).toReal := toReal_infinity_bounds.1
  have hunit : (2 : ℝ) ^ 41 ≤ unitsPerOne := by
    have hle : 2 ^ 41 ≤ unitsPerOne := by
      rw [unitsPerOne_eq]
      exact pow_le_pow_right₀ (by decide) (by decide)
    exact_mod_cast hle
  have hone := one_le_toReal one_le_infinity
  have hscaled : 2 ^ 41 ≤ (upper * (1 + relativeTolerance)).toReal * unitsPerOne := by
    rw [hinfinity]
    exact hunit.trans (le_mul_of_one_le_left unitsPerOne_cast_pos.le hone)
  have hbound := toReal_raised_le hrange.upper_pos hrange.upper_finite hscaled
  rw [hinfinity] at hbound
  have hpower : (10 : ℝ) ^ (308 : Int) = 10 ^ 308 := zpow_natCast 10 308
  have hpositive : (0 : ℝ) < 10 ^ 308 := by positivity
  rw [hpower]
  generalize (10 : ℝ) ^ 308 = power at hlarge hpositive ⊢
  linarith

/-- Then the next power of ten, which is infinite, is kept. -/
theorem infinity_mem_major (hlower_log : LogAccurate log10 lower) (hupper_log : LogAccurate log10 upper) :
    infinity false ∈ (logTicks log10 lower upper).major := by
  have hnumber := isNaN_of_isFinite hrange.upper_finite
  have hfirst : (log10 lower).floor .signed32 ≤ 309 := by
    apply floor_exact_log_le hrange.lower_finite hrange.lower_pos hlower_log (by decide)
    have hle : lower.toReal ≤ (10 : ℝ) ^ (309 : Int) := by
      calc lower.toReal ≤ upper.toReal :=
            (le_iff_toReal (isNaN_of_isFinite hrange.lower_finite) hnumber).mp hrange.lower_le_upper
        _ ≤ (infinity false).toReal := (toReal_lt_infinity hrange.upper_finite).le
        _ ≤ 10 ^ (309 : Int) := toReal_infinity_le (by decide)
    have hexact := (logb_le_intCast_iff (toReal_pos hrange.lower_pos)).mpr hle
    push_cast at hexact ⊢
    linarith
  have hlast : 309 ≤ (log10 upper).ceil .signed32 := by
    apply le_ceil_exact_log hrange.upper_finite hrange.upper_pos hupper_log (by decide)
    have hexact := le_logb_of_mul_le (zpow_mul_le_upper hrange hraised)
    push_cast at hexact ⊢
    linarith
  have hkept : inRange lower upper (infinity false) = true := by
    have hlowered := isFinite_lowered hrange.lower_pos hrange.lower_finite
    rw [inRange_iff, raised_eq_infinity hrange hraised, le_iff_toReal (isNaN_of_isFinite hlowered) rfl,
      le_iff_toReal rfl rfl]
    exact ⟨(toReal_lt_infinity hlowered).le, le_rfl⟩
  rw [logTicks_eq hrange, List.mem_flatMap]
  refine ⟨309, mem_integersBetween_iff.mpr ⟨hfirst, hlast⟩, ?_⟩
  rw [powerOfTen_of_gt (by decide), List.mem_filter]
  exact ⟨List.mem_singleton_self _, hkept⟩

end Infinite

theorem not_soundTicks_of_infinity_mem {ticks : LogTicks} (hmem : infinity false ∈ ticks.major) :
    ¬ SoundTicks lower upper ticks := by
  intro hsound
  exact absurd (hsound.isFinite _ (List.mem_append_left _ hmem)) (by decide)

/-- The ticks of any two numbers are sound unless the upper one overflows when it is raised by the tolerance, whatever
    the logarithms are: these only say which decades to look through. With accurate logarithms the condition is exact,
    since infinite ticks are kept then. -/
theorem soundTicks_logTicks_iff (log10 : Binary64 → Binary64) (lower upper : Binary64) :
    ((IsTickRange lower upper → (upper * (1 + relativeTolerance)).isFinite = true) →
        SoundTicks lower upper (logTicks log10 lower upper)) ∧
      (LogAccurate log10 lower → LogAccurate log10 upper → SoundTicks lower upper (logTicks log10 lower upper) →
        IsTickRange lower upper → (upper * (1 + relativeTolerance)).isFinite = true) := by
  constructor
  · intro hraised
    by_cases hrange : IsTickRange lower upper
    · exact soundTicks_logTicks hrange (hraised hrange)
    · rw [logTicks_of_not_isTickRange hrange]
      constructor <;> simp [LogTicks.all, sorted]
  · intro hlower_log hupper_log hsound hrange
    by_contra hraised
    exact not_soundTicks_of_infinity_mem (infinity_mem_major hrange hraised hlower_log hupper_log) hsound

theorem soundTicks_one_hundred :
    (100 * (1 + relativeTolerance)).isFinite = true ∧ IsTickRange 1 100 ∧
      SoundTicks 1 100 (logTicks accurateLog 1 100) := by
  have hraised : (100 * (1 + relativeTolerance)).isFinite = true := by decide +kernel
  have hrange : IsTickRange 1 100 := ⟨by decide +kernel, by decide +kernel, by decide +kernel⟩
  exact ⟨hraised, hrange, (soundTicks_logTicks_iff accurateLog 1 100).1 fun _ => hraised⟩

/-- From 10³⁰⁸ to the greatest finite number, infinity is among the ticks. -/
theorem logTicks_greatest_infinite :
    IsTickRange 1e308 1.7976931348623157e308 ∧
      infinity false ∈ (logTicks accurateLog 1e308 1.7976931348623157e308).major ∧
      ¬ SoundTicks 1e308 1.7976931348623157e308 (logTicks accurateLog 1e308 1.7976931348623157e308) := by
  have hrange : IsTickRange 1e308 1.7976931348623157e308 := ⟨by decide +kernel, by decide +kernel, by decide +kernel⟩
  have hraised : ¬ ((1.7976931348623157e308 : Binary64) * (1 + relativeTolerance)).isFinite = true := by
    decide +kernel
  have hmem := infinity_mem_major hrange hraised (logAccurate_accurateLog hrange.lower_finite hrange.lower_pos)
    (logAccurate_accurateLog hrange.upper_finite hrange.upper_pos)
  exact ⟨hrange, hmem, not_soundTicks_of_infinity_mem hmem⟩

end ExperimentCharts
