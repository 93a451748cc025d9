import ExperimentCharts.Proofs.Binary64.Real
import Mathlib.Tactic.FieldSimp
import Mathlib.Tactic.Positivity

namespace ExperimentCharts.Binary64

variable {x y z : Binary64} {num den k : Nat}

/-- Neighbours differ by one unit, or by a part in 2⁵² of the lower at most. -/
theorem exists_gap (rank : Nat) :
    ∃ gap, units (rank + 1) = units rank + gap ∧ (gap = 1 ∨ 2 ^ 52 * gap ≤ units rank) := by
  obtain ⟨shift, significand, hrank⟩ := exists_isSignificand rank
  refine ⟨2 ^ shift, ?_, ?_⟩
  · rw [hrank.units_succ_eq, hrank.units_eq, Nat.add_mul, Nat.one_mul]
  · rcases hrank.full with hzero | hfull
    · exact .inl (by rw [hzero, Nat.pow_zero])
    · rw [hrank.units_eq]
      exact .inr (Nat.mul_le_mul_right _ hfull)

/-- A gap is small against what has at least `2 ^ k` units and is not below it. -/
theorem gap_mul_le {gap amount : Nat} (hgap : gap = 1 ∨ 2 ^ 52 * gap ≤ amount) (hk : k ≤ 52)
    (hlarge : 2 ^ k * den ≤ num) (hle : amount * den ≤ num) : 2 ^ k * (gap * den) ≤ num := by
  rcases hgap with rfl | hgap
  · rwa [Nat.one_mul]
  · calc 2 ^ k * (gap * den) ≤ 2 ^ 52 * (gap * den) :=
          Nat.mul_le_mul_right _ (Nat.pow_le_pow_right (by decide) hk)
      _ = 2 ^ 52 * gap * den := (Nat.mul_assoc _ _ _).symm
      _ ≤ amount * den := Nat.mul_le_mul_right _ hgap
      _ ≤ num := hle

/-- A fraction of at least `2 ^ k` units is raised by a part in `2 ^ (k + 1)` at most. It may be rounded to
    infinity. -/
theorem units_nearestRank_mul_le (hden : 0 < den) (hk : k ≤ 52) (hlarge : 2 ^ k * den ≤ num) :
    2 ^ (k + 1) * (units (nearestRank num den) * den) ≤ (2 ^ (k + 1) + 1) * num := by
  have hrank := nearestRank_lt num den
  cases hnearest : nearestRank num den with
  | zero => simp [units_zero]
  | succ lower =>
    -- The value lies above the middle between the result and the number below it.
    have hnot : ¬ nearestRank num den ≤ lower := by omega
    rw [nearestRank_le_iff hden (by omega)] at hnot
    obtain ⟨gap, hnext, hgap⟩ := exists_gap lower
    have hmiddle : 2 * (units lower * den) + gap * den ≤ 2 * num := by
      rw [hnext] at hnot
      have hexpand : (units lower + (units lower + gap)) * den = 2 * (units lower * den) + gap * den := by ring
      omega
    have hsmall := gap_mul_le hgap hk hlarge (by omega)
    rw [hnext, Nat.pow_succ]
    linarith [Nat.mul_le_mul_left (2 ^ k) hmiddle]

/-- It is lowered by no more than that, unless the result is infinite, which bounds it on one side only. -/
theorem le_units_nearestRank_mul (hden : 0 < den) (hk : k ≤ 52) (hlarge : 2 ^ k * den ≤ num)
    (hfinite : nearestRank num den < infiniteRank) :
    2 ^ (k + 1) * num ≤ 2 ^ (k + 1) * (units (nearestRank num den) * den) + num := by
  have hself := (nearestRank_le_iff hden hfinite).mp le_rfl
  generalize nearestRank num den = rank at *
  obtain ⟨gap, hnext, hgap⟩ := exists_gap rank
  rcases Nat.lt_or_ge num (units rank * den) with hless | hle
  · linarith [Nat.mul_le_mul_left (2 ^ (k + 1)) hless.le]
  · have hmiddle : 2 * num ≤ 2 * (units rank * den) + gap * den := by
      rw [hnext] at hself
      have hexpand : (units rank + (units rank + gap)) * den = 2 * (units rank * den) + gap * den := by ring
      omega
    have hsmall := gap_mul_le hgap hk hlarge hle
    rw [Nat.pow_succ]
    linarith [Nat.mul_le_mul_left (2 ^ k) hmiddle]

theorem toReal_nearest (num den : Nat) :
    (nearest false num den).toReal = (units (nearestRank num den) : ℝ) / unitsPerOne :=
  toReal_number_false _

theorem toReal_nearest_le (hden : 0 < den) (hk : k ≤ 52) (hlarge : 2 ^ k * den ≤ num) :
    (nearest false num den).toReal ≤ (1 + 1 / 2 ^ (k + 1)) * (num / (den * unitsPerOne)) := by
  have hbound : (2 : ℝ) ^ (k + 1) * (units (nearestRank num den) * den) ≤ (2 ^ (k + 1) + 1) * num := by
    exact_mod_cast units_nearestRank_mul_le hden hk hlarge
  have hdivisor : (0 : ℝ) < den := Nat.cast_pos.mpr hden
  have hunit := unitsPerOne_cast_pos
  rw [toReal_nearest]
  generalize (unitsPerOne : ℝ) = unit at *
  rw [show (1 + 1 / (2 : ℝ) ^ (k + 1)) * (num / (den * unit)) =
    ((2 ^ (k + 1) + 1) * num) / (2 ^ (k + 1) * den) / unit by field_simp]
  gcongr
  rw [le_div_iff₀ (by positivity)]
  linarith

theorem le_toReal_nearest (hden : 0 < den) (hk : k ≤ 52) (hlarge : 2 ^ k * den ≤ num)
    (hfinite : (nearest false num den).isFinite = true) :
    (1 - 1 / 2 ^ (k + 1)) * (num / (den * unitsPerOne)) ≤ (nearest false num den).toReal := by
  rw [nearest, isFinite_number] at hfinite
  have hrank : nearestRank num den < infiniteRank :=
    lt_of_le_of_ne (Nat.le_of_lt_succ (nearestRank_lt num den)) hfinite
  have hbound : (2 : ℝ) ^ (k + 1) * num ≤ 2 ^ (k + 1) * (units (nearestRank num den) * den) + num := by
    exact_mod_cast le_units_nearestRank_mul hden hk hlarge hrank
  have hdivisor : (0 : ℝ) < den := Nat.cast_pos.mpr hden
  have hunit := unitsPerOne_cast_pos
  rw [toReal_nearest]
  generalize (unitsPerOne : ℝ) = unit at *
  rw [show (1 - 1 / (2 : ℝ) ^ (k + 1)) * (num / (den * unit)) =
    ((2 ^ (k + 1) - 1) * num) / (2 ^ (k + 1) * den) / unit by field_simp]
  gcongr
  rw [div_le_iff₀ (by positivity)]
  linarith

section PositiveProducts

variable (hx : 0 < x) (hy : 0 < y) (hfinite : x.isFinite = true) (hfinite' : y.isFinite = true)

include hx hy hfinite hfinite'

/-- A product of finite factors is rounded from an exact fraction. -/
theorem exists_mul_eq_nearest :
    ∃ num, x * y = nearest false num unitsPerOne ∧ x.toReal * y.toReal = num / unitsPerOne / unitsPerOne := by
  obtain ⟨a, rfl, -⟩ := exists_number_of_pos hx
  obtain ⟨b, rfl, -⟩ := exists_number_of_pos hy
  rw [isFinite_number] at hfinite hfinite'
  refine ⟨units a.val * units b.val, ?_, ?_⟩
  · change mul _ _ = _
    rw [mul, if_neg (by simp [hfinite, hfinite'])]
    rfl
  · rw [toReal_number_false, toReal_number_false, Nat.cast_mul]
    ring

/-- A product of positive numbers is a number, also if it is too large for the format. -/
theorem isNaN_mul : (x * y).isNaN = false := by
  obtain ⟨num, hproduct, -⟩ := exists_mul_eq_nearest hx hy hfinite hfinite'
  rw [hproduct]
  rfl

/-- A product is never rounded down past a number of the format. -/
theorem le_toReal_mul_of_le (hz : z.isNaN = false) (hle : z.toReal ≤ x.toReal * y.toReal) :
    z.toReal ≤ (x * y).toReal := by
  obtain ⟨num, hproduct, hexact⟩ := exists_mul_eq_nearest hx hy hfinite hfinite'
  obtain ⟨negative, rank, rfl⟩ := exists_number_of_isNaN hz
  rw [hproduct, ← le_iff_toReal rfl rfl, nearest, le_iff_position rfl rfl]
  cases negative with
  | true =>
    simp only [if_true, Bool.false_eq_true, if_false]
    omega
  | false =>
    rw [hexact, toReal_number_false, div_le_div_iff_of_pos_right unitsPerOne_cast_pos,
      le_div_iff₀ unitsPerOne_cast_pos] at hle
    have hrank := le_nearestRank unitsPerOne_pos (Nat.le_of_lt_succ rank.isLt) (by exact_mod_cast hle)
    exact Int.ofNat_le.mpr hrank

/-- A product is never rounded up past a number of the format. -/
theorem toReal_mul_le_of_le (hz : z.isNaN = false) (hle : x.toReal * y.toReal ≤ z.toReal) :
    (x * y).toReal ≤ z.toReal := by
  obtain ⟨num, hproduct, hexact⟩ := exists_mul_eq_nearest hx hy hfinite hfinite'
  have hpositive : 0 < z := by
    rw [pos_iff_toReal hz]
    exact (mul_pos (toReal_pos hx) (toReal_pos hy)).trans_le hle
  obtain ⟨rank, rfl, -⟩ := exists_number_of_pos hpositive
  rw [hexact, toReal_number_false, div_le_div_iff_of_pos_right unitsPerOne_cast_pos,
    div_le_iff₀ unitsPerOne_cast_pos] at hle
  have hrank := nearestRank_le unitsPerOne_pos (Nat.le_of_lt_succ rank.isLt) (by exact_mod_cast hle)
  rw [hproduct, ← le_iff_toReal rfl rfl, le_iff_position (position_nearest _ _) rfl]
  exact Int.ofNat_le.mpr hrank

/-- A factor of more than one half does not make a product vanish. -/
theorem mul_pos_of_half_lt (hhalf : 1 / 2 < y.toReal) : 0 < x * y := by
  obtain ⟨num, hproduct, hexact⟩ := exists_mul_eq_nearest hx hy hfinite hfinite'
  have hlarge : unitsPerOne < 2 * num := by
    have hunit := unitsPerOne_cast_pos
    have hx1 : 1 ≤ x.toReal * unitsPerOne := by
      rw [← inv_le_iff_one_le_mul₀ hunit]
      exact inv_unitsPerOne_le_toReal hx
    have hvalue : x.toReal * unitsPerOne * y.toReal = num / unitsPerOne := by
      rw [mul_right_comm, hexact, div_mul_cancel₀ _ hunit.ne']
    have hless : (1 : ℝ) / 2 < num / unitsPerOne := by
      rw [← hvalue]
      nlinarith
    rw [lt_div_iff₀ hunit] at hless
    have hdouble : (unitsPerOne : ℝ) < 2 * num := by linarith
    exact_mod_cast hdouble
  have hrank : 0 < nearestRank num unitsPerOne := by
    by_contra hnot
    have hmiddle : units 0 + units (0 + 1) = 1 := rfl
    have hzero := (nearestRank_le_iff unitsPerOne_pos (show 0 < infiniteRank by decide)).mp (Nat.le_of_not_lt hnot)
    rw [hmiddle, Nat.one_mul] at hzero
    omega
  rw [hproduct, zero_eq, zero, lt_iff_position rfl (position_nearest _ _)]
  exact Int.ofNat_lt.mpr hrank

/-- A product whose value has `2 ^ k` units is raised by a part in `2 ^ (k + 1)` at most. -/
theorem toReal_mul_le_of_large (hk : k ≤ 52) (hlarge : 2 ^ k ≤ x.toReal * y.toReal * unitsPerOne) :
    (x * y).toReal ≤ (1 + 1 / 2 ^ (k + 1)) * (x.toReal * y.toReal) := by
  obtain ⟨num, hproduct, hexact⟩ := exists_mul_eq_nearest hx hy hfinite hfinite'
  rw [hexact, div_mul_cancel₀ _ unitsPerOne_cast_pos.ne', le_div_iff₀ unitsPerOne_cast_pos] at hlarge
  rw [hproduct, hexact, div_div]
  exact toReal_nearest_le unitsPerOne_pos hk (by exact_mod_cast hlarge)

/-- A finite product of that size is lowered by no more than that. -/
theorem le_toReal_mul_of_large (hk : k ≤ 52) (hlarge : 2 ^ k ≤ x.toReal * y.toReal * unitsPerOne)
    (hresult : (x * y).isFinite = true) :
    (1 - 1 / 2 ^ (k + 1)) * (x.toReal * y.toReal) ≤ (x * y).toReal := by
  obtain ⟨num, hproduct, hexact⟩ := exists_mul_eq_nearest hx hy hfinite hfinite'
  rw [hexact, div_mul_cancel₀ _ unitsPerOne_cast_pos.ne', le_div_iff₀ unitsPerOne_cast_pos] at hlarge
  rw [hproduct] at hresult
  rw [hproduct, hexact, div_div]
  exact le_toReal_nearest unitsPerOne_pos hk (by exact_mod_cast hlarge) hresult

end PositiveProducts

/-- The numbers from one up, infinity included, by their rank. -/
theorem one_le_iff : 1 ≤ x ↔ ∃ rank, x = .number false rank ∧ unitsPerOne ≤ units rank.val := by
  rw [one_eq, ← units_rankOfOne]
  cases x with
  | nan negative =>
    simp only [reduceCtorEq, false_and, exists_false, iff_false]
    exact Bool.false_ne_true
  | number negative rank =>
    rw [le_iff_position rfl rfl]
    cases negative with
    | false => simp [units_strictMono.le_iff_le]
    | true => simp; omega

theorem one_le_infinity : 1 ≤ infinity false := by
  rw [one_eq]
  decide

theorem isNaN_of_one_le (hx : 1 ≤ x) : x.isNaN = false := by
  obtain ⟨rank, rfl, -⟩ := one_le_iff.mp hx
  rfl

theorem one_le_toReal (hx : 1 ≤ x) : 1 ≤ x.toReal := by
  rw [← toReal_one]
  exact (le_iff_toReal rfl (isNaN_of_one_le hx)).mp hx

theorem pos_of_one_le (hx : 1 ≤ x) : 0 < x := by
  rw [pos_iff_toReal (isNaN_of_one_le hx)]
  exact one_pos.trans_le (one_le_toReal hx)

/-- Two numbers from one up are finite unless one of them is infinity. -/
theorem isFinite_factors (hx : 1 ≤ x) (hy : 1 ≤ y) (hfinite : ¬ (x = infinity false ∨ y = infinity false)) :
    x.isFinite = true ∧ y.isFinite = true := by
  rw [not_or] at hfinite
  exact ⟨(eq_infinity_or_isFinite (pos_of_one_le hx)).resolve_left hfinite.1,
    (eq_infinity_or_isFinite (pos_of_one_le hy)).resolve_left hfinite.2⟩

theorem rank_ne_zero {rank : Nat} (hrank : unitsPerOne ≤ units rank) : rank ≠ 0 := by
  rintro rfl
  exact absurd (unitsPerOne_pos.trans_le hrank) (by decide)

/-- A product is infinite with one of its factors. -/
theorem mul_eq_infinity (hx : 1 ≤ x) (hy : 1 ≤ y) (hinfinite : x = infinity false ∨ y = infinity false) :
    x * y = infinity false := by
  obtain ⟨a, rfl, ha⟩ := one_le_iff.mp hx
  obtain ⟨b, rfl, hb⟩ := one_le_iff.mp hy
  have hrank : a.val = infiniteRank ∨ b.val = infiniteRank := by
    simpa [infinity, Fin.ext_iff] using hinfinite
  change mul _ _ = _
  rw [mul, if_pos hrank, if_neg (by simp [rank_ne_zero ha, rank_ne_zero hb])]
  rfl

/-- Numbers from one up are closed under multiplication; overflow stays among them as infinity. -/
theorem one_le_mul (hx : 1 ≤ x) (hy : 1 ≤ y) : 1 ≤ x * y := by
  by_cases hinfinite : x = infinity false ∨ y = infinity false
  · rw [mul_eq_infinity hx hy hinfinite]
    exact one_le_infinity
  · obtain ⟨hfinite, hfinite'⟩ := isFinite_factors hx hy hinfinite
    have hproduct := isNaN_mul (pos_of_one_le hx) (pos_of_one_le hy) hfinite hfinite'
    rw [le_iff_toReal rfl hproduct]
    apply le_toReal_mul_of_le (pos_of_one_le hx) (pos_of_one_le hy) hfinite hfinite' rfl
    rw [toReal_one]
    exact one_le_mul_of_one_le_of_one_le (one_le_toReal hx) (one_le_toReal hy)

/-- A factor from one up keeps a positive number positive, however small it is. -/
theorem mul_pos_of_one_le_left (hx : 1 ≤ x) (hy : 0 < y) (hfinite : x.isFinite = true)
    (hfinite' : y.isFinite = true) : 0 < x * y := by
  have hproduct := isNaN_mul (pos_of_one_le hx) hy hfinite hfinite'
  have hle : y.toReal ≤ (x * y).toReal := by
    apply le_toReal_mul_of_le (pos_of_one_le hx) hy hfinite hfinite' (isNaN_of_isFinite hfinite')
    exact le_mul_of_one_le_left (toReal_pos hy).le (one_le_toReal hx)
  rw [pos_iff_toReal hproduct]
  exact (toReal_pos hy).trans_le hle

/-- Such products lie in the range of the full 53 bits. -/
theorem two_pow_le_mul_unitsPerOne (hx : 1 ≤ x) (hy : 1 ≤ y) : 2 ^ 52 ≤ x.toReal * y.toReal * unitsPerOne := by
  have hunit : (2 : ℝ) ^ 52 ≤ unitsPerOne := by
    have hle : 2 ^ 52 ≤ unitsPerOne := by
      rw [unitsPerOne_eq]
      exact pow_le_pow_right₀ (by decide) (by decide)
    exact_mod_cast hle
  exact hunit.trans (le_mul_of_one_le_left unitsPerOne_cast_pos.le
    (one_le_mul_of_one_le_of_one_le (one_le_toReal hx) (one_le_toReal hy)))

/-- A product of numbers from one up is raised by a part in 2⁵³ at most. -/
theorem toReal_mul_le (hx : 1 ≤ x) (hy : 1 ≤ y) :
    (x * y).toReal ≤ (1 + 1 / 2 ^ 53) * (x.toReal * y.toReal) := by
  have hx1 := one_le_toReal hx
  have hy1 := one_le_toReal hy
  by_cases hinfinite : x = infinity false ∨ y = infinity false
  · rw [mul_eq_infinity hx hy hinfinite]
    have hle : (infinity false).toReal ≤ x.toReal * y.toReal := by
      rcases hinfinite with rfl | rfl
      · exact le_mul_of_one_le_right (by linarith) hy1
      · exact le_mul_of_one_le_left (by linarith) hx1
    exact hle.trans (le_mul_of_one_le_left (mul_nonneg (by linarith) (by linarith)) (by norm_num))
  · obtain ⟨hfinite, hfinite'⟩ := isFinite_factors hx hy hinfinite
    exact toReal_mul_le_of_large (pos_of_one_le hx) (pos_of_one_le hy) hfinite hfinite' le_rfl
      (two_pow_le_mul_unitsPerOne hx hy)

/-- If it is finite, it is lowered by a part in 2⁵³ at most. -/
theorem le_toReal_mul (hx : 1 ≤ x) (hy : 1 ≤ y) (hfinite : (x * y).isFinite = true) :
    (1 - 1 / 2 ^ 53) * (x.toReal * y.toReal) ≤ (x * y).toReal := by
  by_cases hinfinite : x = infinity false ∨ y = infinity false
  · rw [mul_eq_infinity hx hy hinfinite] at hfinite
    exact absurd hfinite (by decide)
  · obtain ⟨hfactor, hfactor'⟩ := isFinite_factors hx hy hinfinite
    exact le_toReal_mul_of_large (pos_of_one_le hx) (pos_of_one_le hy) hfactor hfactor' le_rfl
      (two_pow_le_mul_unitsPerOne hx hy) hfinite

theorem isFinite_one_div (hx : 1 ≤ x) (hfinite : x.isFinite = true) : (1 / x).isFinite = true := by
  obtain ⟨rank, rfl, hrank⟩ := one_le_iff.mp hx
  rw [isFinite_number] at hfinite
  exact isFinite_div (by rw [one_eq]; decide) (lt_of_le_of_ne (Nat.le_of_lt_succ rank.isLt) hfinite) hrank

/-- A reciprocal may lie below the range of the full 53 bits, but not by much. -/
theorem toReal_one_div (hx : 1 ≤ x) (hfinite : x.isFinite = true) :
    (1 - 1 / 2 ^ 51) * x.toReal⁻¹ ≤ (1 / x).toReal ∧ (1 / x).toReal ≤ (1 + 1 / 2 ^ 51) * x.toReal⁻¹ := by
  have hresult := isFinite_one_div hx hfinite
  obtain ⟨rank, rfl, hrank⟩ := one_le_iff.mp hx
  rw [isFinite_number] at hfinite
  have hpositive : 0 < units rank.val := unitsPerOne_pos.trans_le hrank
  have hquotient : (1 / number false rank : Binary64) =
      nearest false (unitsPerOne * unitsPerOne) (units rank.val) := by
    rw [one_eq]
    change div _ _ = _
    rw [div, if_neg (by decide), if_neg hfinite, if_neg (rank_ne_zero hrank), units_rankOfOne]
    rfl
  have hlarge : 2 ^ 50 * units rank.val ≤ unitsPerOne * unitsPerOne := by
    have hinfinite : 2 ^ 50 * units infiniteRank = unitsPerOne * unitsPerOne := by
      rw [units_infiniteRank, ← mul_assoc, ← pow_add, unitsPerOne_eq]
    rw [← hinfinite]
    exact Nat.mul_le_mul_left _ (units_strictMono.monotone (Nat.le_of_lt_succ rank.isLt))
  have hexact : (number false rank).toReal⁻¹ =
      ((unitsPerOne * unitsPerOne : Nat) : ℝ) / (units rank.val * unitsPerOne) := by
    rw [toReal_number_false, Nat.cast_mul, inv_div, mul_div_mul_right _ _ unitsPerOne_cast_pos.ne']
  rw [hquotient] at hresult ⊢
  rw [hexact]
  exact ⟨le_toReal_nearest hpositive (by decide) hlarge hresult, toReal_nearest_le hpositive (by decide) hlarge⟩

end ExperimentCharts.Binary64
