import ExperimentCharts.Proofs.Binary64.Decimal

namespace ExperimentCharts.Binary64

theorem isFinite_zero (negative : Bool) : (zero negative).isFinite = true := by
  rw [zero, isFinite_number]
  decide

theorem isFinite_neg (x : Binary64) : (-x).isFinite = x.isFinite := by
  cases x <;> rfl

/-- The whole numbers of 64 bits are in range. -/
theorem isFinite_nearest_whole (negative : Bool) {n : Nat} (hn : n ≤ 2 ^ 64) :
    (nearest negative (n * unitsPerOne) 1).isFinite = true := by
  apply isFinite_nearest negative Nat.one_pos (show 0x43F0000000000000 < infiniteRank by decide)
  rw [units_rankOfTwoPow, Nat.mul_one]
  exact Nat.mul_le_mul_right _ hn

/-- The powers of ten in range are finite and at least one. -/
theorem exists_ofDecimal_ten_pow {exponent : Nat} (hexponent : exponent ≤ 308) :
    ∃ rank, ofDecimal false ⟨1, exponent⟩ = .number false rank ∧ rank.val < infiniteRank ∧
      unitsPerOne ≤ units rank.val := by
  have hnum : (⟨1, exponent⟩ : Decimal).unitsNum = 10 ^ exponent * unitsPerOne := by
    simp [Decimal.unitsNum]
  have hden : (⟨1, exponent⟩ : Decimal).unitsDen = 1 := by simp [Decimal.unitsDen]
  rw [ofDecimal_eq_nearest, hnum, hden]
  refine ⟨_, rfl, ?_, ?_⟩
  · have hlargest : 10 ^ 308 * unitsPerOne ≤ units (infiniteRank - 1) := by decide +kernel
    have hpow : 10 ^ exponent * unitsPerOne ≤ 10 ^ 308 * unitsPerOne :=
      Nat.mul_le_mul_right unitsPerOne (Nat.pow_le_pow_right (by decide) hexponent)
    have hle : 10 ^ exponent * unitsPerOne ≤ units (infiniteRank - 1) * 1 := by
      rw [Nat.mul_one]
      exact Nat.le_trans hpow hlargest
    have hrank := nearestRank_le Nat.one_pos (Nat.sub_le infiniteRank 1) hle
    exact hrank.trans_lt (by decide)
  · have hle : units 0x3FF0000000000000 * 1 ≤ 10 ^ exponent * unitsPerOne := by
      rw [units_rankOfOne, Nat.mul_comm]
      exact Nat.mul_le_mul_right _ (Nat.one_le_pow _ _ (by decide))
    have hrank := le_nearestRank Nat.one_pos (show 0x3FF0000000000000 ≤ infiniteRank by decide) hle
    calc unitsPerOne = units 0x3FF0000000000000 := units_rankOfOne.symm
      _ ≤ units (nearestRank (10 ^ exponent * unitsPerOne) 1) := units_strictMono.monotone hrank

/-- A finite number divided by one or more is finite. -/
theorem isFinite_div {x : Binary64} (hx : x.isFinite = true) {negative : Bool} {rank : Fin (infiniteRank + 1)}
    (hrank : rank.val < infiniteRank) (hone : unitsPerOne ≤ units rank.val) :
    (x / number negative rank).isFinite = true := by
  cases x with
  | nan sign => cases hx
  | number sign other =>
    have hother := (isFinite_number sign other).mp hx
    have hless : other.val < infiniteRank := by omega
    have hpositive : rank.val ≠ 0 := by
      intro hzero
      rw [hzero, units_zero] at hone
      exact absurd unitsPerOne_pos (by omega)
    have hdiv : number sign other / number negative rank =
        nearest (sign != negative) (units other.val * unitsPerOne) (units rank.val) := by
      change div _ _ = _
      rw [div, if_neg hother, if_neg hrank.ne, if_neg hpositive]
    rw [hdiv]
    exact isFinite_nearest _ (units_pos (Nat.pos_of_ne_zero hpositive)) hless (Nat.mul_le_mul_left _ hone)

/-- The powers of ten up to the greatest one in the format are finite. -/
theorem isFinite_ten_pow {exponent : Nat} (hexponent : exponent ≤ 308) :
    (ofDecimal false ⟨1, exponent⟩).isFinite = true := by
  obtain ⟨rank, hpower, hrank, -⟩ := exists_ofDecimal_ten_pow hexponent
  rw [hpower, isFinite_number]
  exact hrank.ne

theorem isFinite_div_ten_pow {x : Binary64} (hx : x.isFinite = true) {exponent : Nat} (hexponent : exponent ≤ 308) :
    (x / ofDecimal false ⟨1, exponent⟩).isFinite = true := by
  obtain ⟨rank, hpower, hrank, hone⟩ := exists_ofDecimal_ten_pow hexponent
  rw [hpower]
  exact isFinite_div hx hrank hone

/-- The product of finite numbers is finite unless it is infinite: it is never undefined. -/
theorem isFinite_mul {x y : Binary64} (hx : x.isFinite = true) (hy : y.isFinite = true)
    (hproduct : ¬ (x * y).isInfinite = true) : (x * y).isFinite = true := by
  cases x with
  | nan sign => cases hx
  | number sign rank =>
    cases y with
    | nan sign => cases hy
    | number sign' rank' =>
      have hmul : number sign rank * number sign' rank' =
          nearest (sign != sign') (units rank.val * units rank'.val) unitsPerOne := by
        change mul _ _ = _
        rw [mul, if_neg]
        rw [not_or]
        exact ⟨(isFinite_number _ _).mp hx, (isFinite_number _ _).mp hy⟩
      rw [hmul] at hproduct ⊢
      simpa [nearest, isFinite, isInfinite] using hproduct

/-- A number, finite or not, other than the two zeros. -/
def IsNonzero (x : Binary64) : Prop := ∃ negative rank, x = .number negative rank ∧ rank.val ≠ 0

/-- Away from zero, numeric equality is equality. -/
theorem equal_iff_eq {x y : Binary64} (hy : y.IsNonzero) : x.equal y = true ↔ x = y := by
  obtain ⟨sign, rank, rfl, hrank⟩ := hy
  cases x with
  | nan negative => simp [equal, position]
  | number sign' rank' =>
    rw [number.injEq, Fin.ext_iff]
    cases sign <;> cases sign' <;>
      simp only [equal, position, decide_eq_true_eq, if_true, if_false, Bool.false_eq_true, reduceCtorEq,
        true_and, false_and, iff_false] <;> omega

/-- The total order tells all numbers apart. -/
theorem sortKey_injective : Function.Injective sortKey := by
  intro x y hkey
  rcases x with (_ | _) | ⟨_ | _, rank⟩ <;> rcases y with (_ | _) | ⟨_ | _, rank'⟩ <;>
    simp only [sortKey, nan.injEq, number.injEq, Fin.ext_iff, reduceCtorEq, true_and] at hkey ⊢ <;> omega

/-- The total order is transitive, also through the two zeros and not-a-number. -/
theorem totalLe_trans (x y z : Binary64) (hxy : x.totalLe y = true) (hyz : y.totalLe z = true) :
    x.totalLe z = true := by
  simp only [totalLe, decide_eq_true_eq] at *
  omega

/-- The total order compares any two numbers of the format, not-a-number included. -/
theorem totalLe_total (x y : Binary64) : (x.totalLe y || y.totalLe x) = true := by
  simp only [totalLe, Bool.or_eq_true, decide_eq_true_eq]
  omega

/-- No two numbers of the format share a place in the total order. -/
theorem totalLe_antisymm {x y : Binary64} (hxy : x.totalLe y = true) (hyx : y.totalLe x = true) : x = y := by
  simp only [totalLe, decide_eq_true_eq] at hxy hyx
  exact sortKey_injective (by omega)

/-- The numeric order is asymmetric; nothing is asked of the two numbers. -/
theorem lt_asymm {x y : Binary64} (hxy : x < y) : ¬ y < x := by
  change lt x y = true at hxy
  change ¬ lt y x = true
  unfold lt at *
  cases hx : x.position with
  | none => simp [hx] at hxy
  | some p =>
    cases hy : y.position with
    | none => simp
    | some q =>
      simp only [hx, hy, decide_eq_true_eq] at hxy ⊢
      omega

/-- Away from zero, the total order is the numeric one. -/
theorem lt_of_totalLe {x y : Binary64} (hx : x.IsNonzero) (hy : y.IsNonzero) (hle : x.totalLe y = true)
    (hne : x ≠ y) : x < y := by
  have hkey : x.sortKey ≠ y.sortKey := fun hkey => hne (sortKey_injective hkey)
  obtain ⟨sign, rank, rfl, hrank⟩ := hx
  obtain ⟨sign', rank', rfl, hrank'⟩ := hy
  simp only [totalLe, decide_eq_true_eq] at hle
  change lt _ _ = true
  simp only [lt, position, decide_eq_true_eq]
  cases sign <;> cases sign' <;> simp only [sortKey] at hle hkey <;> simp <;> omega

end ExperimentCharts.Binary64
