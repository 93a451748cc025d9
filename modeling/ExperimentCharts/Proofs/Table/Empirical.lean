import ExperimentCharts.Proofs.Table.Distribution

namespace ExperimentCharts

open Binary64

/-- The values that are numbers, in the order of the series. -/
def Series.numbers (series : Series) : List Binary64 := series.values.filter fun value => !value.isNaN

/-- Each point pairs one of the numbers, taken in ascending order, with its rank as a percentage of their count. The
    percentages are rounded and still grow from each point to the next, up to one hundred. -/
structure IsEmpirical (numbers : List Binary64) (points : List (Binary64 × Binary64)) : Prop where
  length_eq : points.length = numbers.length
  perm : (points.map Prod.snd).Perm numbers
  ascending : (points.map Prod.snd).Pairwise fun value next => value.totalLe next = true
  percentages_eq : points.map Prod.fst = (List.range numbers.length).map fun (index : Nat) =>
    ((index + 1 : Nat) : Binary64) * 100 / (numbers.length : Binary64)
  growing : (points.map Prod.fst).Pairwise fun percentage next => percentage < next
  within : ∀ percentage ∈ points.map Prod.fst, 0 < percentage ∧ percentage ≤ 100
  last_eq : ∀ percentage, (points.map Prod.fst).getLast? = some percentage → percentage = 100

theorem rankPercentage_zero {count : Nat} (hcount : count ≤ 2 ^ 46) (hpositive : 0 < count) :
    rankPercentage count 0 = 0 := by
  rw [rankPercentage_eq hcount (Nat.zero_le count) hpositive]
  apply nearest_congr _ hpositive Nat.one_pos
  ring

theorem rankPercentage_pos {count rank : Nat} (hcount : count ≤ 2 ^ 46) (hpositive : 0 < rank)
    (hrank : rank ≤ count) : 0 < rankPercentage count rank := by
  rw [← rankPercentage_zero hcount (by omega)]
  exact rankPercentage_lt hcount hpositive hrank

namespace Series

variable {series other : Series}

/-- The order has all the numbers. -/
theorem perm_ordered (series : Series) : series.ordered.Perm series.numbers := perm_sorted _

theorem length_ordered (series : Series) : series.ordered.length = series.numbers.length :=
  series.perm_ordered.length_eq

/-- The percentages are those of the ranks, which depend on how many numbers there are only. -/
theorem map_fst_distribution (series : Series) :
    series.distribution.map Prod.fst =
      (List.range series.numbers.length).map fun index => rankPercentage series.numbers.length (index + 1) := by
  apply List.ext_getElem
  · rw [List.length_map, List.length_map, List.length_range, length_distribution, length_ordered]
  · intro index hindex hindex'
    rw [List.getElem_map, List.getElem_map, List.getElem_range, ← length_ordered]
    simp only [distribution, List.getElem_mapIdx]

/-- Series with the same numbers have the same distribution, whatever stands between the numbers. -/
theorem distribution_eq_iff : other.distribution = series.distribution ↔ other.numbers.Perm series.numbers := by
  constructor
  · intro heq
    have hordered : other.ordered = series.ordered := by
      rw [← map_snd_distribution, heq, map_snd_distribution]
    exact other.perm_ordered.symm.trans (hordered ▸ series.perm_ordered)
  · intro hperm
    have hordered : other.ordered = series.ordered := sorted_eq_of_perm hperm
    simp only [distribution, hordered]

theorem isEmpirical_distribution (hcount : series.numbers.length ≤ 2 ^ 46) :
    IsEmpirical series.numbers series.distribution := by
  have hordered : series.ordered.length ≤ 2 ^ 46 := series.length_ordered.trans_le hcount
  refine ⟨?_, ?_, ?_, series.map_fst_distribution, ?_, ?_, ?_⟩
  · rw [length_distribution, length_ordered]
  · rw [map_snd_distribution]
    exact series.perm_ordered
  · rw [map_snd_distribution]
    exact pairwise_sorted _
  · rw [List.pairwise_map]
    exact (pairwise_distribution hordered).imp And.left
  · intro percentage hpercentage
    rw [map_fst_distribution, List.mem_map] at hpercentage
    obtain ⟨index, hindex, rfl⟩ := hpercentage
    have hrank : index + 1 ≤ series.numbers.length := List.mem_range.mp hindex
    exact ⟨rankPercentage_pos hcount (Nat.succ_pos index) hrank, rankPercentage_le hcount hrank (by omega)⟩
  · intro percentage hlast
    rw [List.getLast?_map, Option.map_eq_some_iff] at hlast
    obtain ⟨point, hpoint, rfl⟩ := hlast
    exact fst_of_getLast?_distribution hordered hpoint

/-- The distribution of a series is the empirical one of its numbers, in the total order, which keeps the two zeros
    apart. Two series have the same distribution exactly if they hold the same numbers equally often. -/
theorem distribution_isEmpirical (series : Series) (hcount : series.numbers.length ≤ 2 ^ 46) :
    IsEmpirical series.numbers series.distribution ∧
      ∀ other : Series, other.distribution = series.distribution ↔ other.numbers.Perm series.numbers :=
  ⟨isEmpirical_distribution hcount, fun _ => distribution_eq_iff⟩

/-- Both zeros and both infinities, a repeated value, and two values that are not numbers. -/
def sampleSeries : Series :=
  ⟨"sample", [infinity false, .nan true, zero false, 3, zero true, .nan false, infinity true, 3]⟩

/-- The same numbers in another order, without the other values. -/
def rearrangedSeries : Series :=
  ⟨"rearranged", [3, zero true, 3, infinity true, infinity false, zero false]⟩

/-- What is not a number has no point, and the order of the values cannot be seen. -/
theorem distribution_sampleSeries :
    sampleSeries.numbers.length ≤ 2 ^ 46 ∧ IsEmpirical sampleSeries.numbers sampleSeries.distribution ∧
      sampleSeries.distribution.length = 6 ∧ rearrangedSeries.distribution = sampleSeries.distribution := by
  have hcount : sampleSeries.numbers.length = 6 := by decide +kernel
  obtain ⟨hempirical, hsame⟩ := distribution_isEmpirical sampleSeries (hcount.trans_le (by decide))
  have hperm : rearrangedSeries.numbers.Perm sampleSeries.numbers := by decide +kernel
  exact ⟨hcount.trans_le (by decide), hempirical, hempirical.length_eq.trans hcount,
    (hsame rearrangedSeries).mpr hperm⟩

end Series

end ExperimentCharts
