import ExperimentCharts.Proofs.Binary64.Exact
import ExperimentCharts.Proofs.Binary64.Order
import ExperimentCharts.Table

namespace ExperimentCharts

open Binary64

/-- A percentage is an exact fraction, rounded once: ranks are multiplied by one hundred without loss. -/
theorem rankPercentage_eq {count rank : Nat} (hcount : count ≤ 2 ^ 46) (hrank : rank ≤ count)
    (hpositive : 0 < count) :
    rankPercentage count rank = nearest false (rank * 100 * unitsPerOne) count := by
  have hhundred : (100 : Binary64) = ((100 : Nat) : Binary64) := rfl
  rw [rankPercentage, hhundred, natCast_mul_natCast (by omega) (by decide),
    natCast_div_natCast (by omega) (by omega) hpositive]

/-- The last percentage is exact. -/
theorem rankPercentage_self {count : Nat} (hcount : count ≤ 2 ^ 46) (hpositive : 0 < count) :
    rankPercentage count count = 100 := by
  rw [rankPercentage_eq hcount le_rfl hpositive]
  apply nearest_congr _ hpositive Nat.one_pos
  ring

/-- A higher rank has a higher percentage. -/
theorem rankPercentage_lt {count rank rank' : Nat} (hcount : count ≤ 2 ^ 46) (hless : rank < rank')
    (hrank : rank' ≤ count) : rankPercentage count rank < rankPercentage count rank' := by
  have hpositive : 0 < count := by omega
  obtain ⟨hundred, -, hlimit, hvalue⟩ := exists_natCast_eq (show 100 ≤ 2 ^ 53 by decide)
  -- Below one hundred the numbers of the format lie 2 ^ 1028 units apart or closer.
  have hunits : unitsPerOne = 2 ^ 46 * 2 ^ 1028 := by rw [unitsPerOne_eq, ← pow_add]
  rw [rankPercentage_eq hcount (by omega) hpositive, rankPercentage_eq hcount hrank hpositive,
    lt_iff_position (position_nearest _ _) (position_nearest _ _), Int.ofNat_lt]
  apply nearestRank_lt_of_steps 1028 hpositive hlimit.le <;> generalize (2 : Nat) ^ 1028 = step at hunits ⊢
  · rw [hvalue]
    calc rank' * 100 * unitsPerOne ≤ count * 100 * unitsPerOne := by gcongr
      _ = 100 * unitsPerOne * count := by ring
  · have hquotient : rank * 100 * unitsPerOne / (step * count) ≤ 100 * 2 ^ 46 := by
      apply Nat.div_le_of_le_mul
      calc rank * 100 * unitsPerOne ≤ count * 100 * unitsPerOne := by gcongr; omega
        _ = step * count * (100 * 2 ^ 46) := by rw [hunits]; ring
    exact (Nat.add_le_add_right hquotient 2).trans (by decide)
  · calc rank * 100 * unitsPerOne + 2 * (step * count)
        ≤ rank * 100 * unitsPerOne + 2 * (step * 2 ^ 46) := by gcongr
      _ ≤ (rank + 1) * 100 * unitsPerOne := by rw [hunits]; linarith
      _ ≤ rank' * 100 * unitsPerOne := by gcongr; omega

theorem rankPercentage_le {count rank : Nat} (hcount : count ≤ 2 ^ 46) (hrank : rank ≤ count)
    (hpositive : 0 < count) : rankPercentage count rank ≤ 100 := by
  rw [← rankPercentage_self hcount hpositive, rankPercentage_eq hcount hrank hpositive,
    rankPercentage_eq hcount le_rfl hpositive, le_iff_position (position_nearest _ _) (position_nearest _ _),
    Int.ofNat_le]
  apply nearestRank_mono hpositive hpositive
  gcongr

namespace Series

variable {series : Series}

theorem length_distribution (series : Series) : series.distribution.length = series.ordered.length := by
  simp [distribution]

/-- The heights of the points are the numbers in order. -/
theorem map_snd_distribution (series : Series) : series.distribution.map Prod.snd = series.ordered := by
  apply List.ext_getElem <;> simp [distribution]

theorem isNaN_of_mem_ordered {value : Binary64} (hvalue : value ∈ series.ordered) : value.isNaN = false := by
  have hmem := (perm_sorted _).mem_iff.mp hvalue
  simpa using (List.mem_filter.mp hmem).2

theorem pairwise_ordered (series : Series) : series.ordered.Pairwise fun value next => value ≤ next := by
  apply (pairwise_sorted _).imp_of_mem
  intro value next hvalue hnext hle
  exact le_of_totalLe (isNaN_of_mem_ordered hvalue) (isNaN_of_mem_ordered hnext) hle

variable (hcount : series.ordered.length ≤ 2 ^ 46)
include hcount

/-- Percentages grow from point to point, and values do not shrink. -/
theorem pairwise_distribution :
    series.distribution.Pairwise fun point next => point.1 < next.1 ∧ point.2 ≤ next.2 := by
  rw [List.pairwise_iff_getElem]
  intro index next hindex hnext hless
  rw [length_distribution] at hindex hnext
  have hvalues := List.pairwise_iff_getElem.mp series.pairwise_ordered index next hindex hnext hless
  simp only [distribution, List.getElem_mapIdx]
  exact ⟨rankPercentage_lt hcount (by omega) hnext, hvalues⟩

/-- The last point lies at one hundred per cent. -/
theorem fst_of_getLast?_distribution {point : Binary64 × Binary64}
    (hlast : series.distribution.getLast? = some point) : point.1 = 100 := by
  rw [List.getLast?_eq_getElem?, length_distribution] at hlast
  obtain ⟨hinside, rfl⟩ := List.getElem?_eq_some_iff.mp hlast
  rw [length_distribution] at hinside
  simp only [distribution, List.getElem_mapIdx]
  rw [Nat.sub_add_cancel (by omega), rankPercentage_self hcount (by omega)]

end Series

end ExperimentCharts
