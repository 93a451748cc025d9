import ExperimentCharts.Proofs.Binary64.Midpoint
import ExperimentCharts.Proofs.Results.Agreement

namespace ExperimentCharts

open Binary64

/-- A list has one or two members in its middle. -/
theorem exists_middle {α : Type} {items : List α} (hitems : items ≠ []) :
    ∃ before after, before.length = after.length ∧
      ((∃ middle, items = before ++ middle :: after) ∨
        ∃ lower upper, items = before ++ lower :: upper :: after) := by
  have hpositive := List.length_pos_iff.mpr hitems
  by_cases hodd : items.length % 2 = 1
  · refine ⟨items.take (items.length / 2), items.drop (items.length / 2 + 1), ?_, .inl ⟨items[items.length / 2], ?_⟩⟩
    · simp
      omega
    · rw [← List.drop_eq_getElem_cons, List.take_append_drop]
  · refine ⟨items.take (items.length / 2 - 1), items.drop (items.length / 2 - 1 + 1 + 1), ?_,
      .inr ⟨items[items.length / 2 - 1], items[items.length / 2 - 1 + 1], ?_⟩⟩
    · simp
      omega
    · rw [← List.drop_eq_getElem_cons, ← List.drop_eq_getElem_cons, List.take_append_drop]

/-- The median of an odd number of values is the one in the middle. -/
theorem median_of_middle {before after : List Binary64} (hlength : before.length = after.length) (middle : Binary64) :
    median (before ++ middle :: after) = some middle := by
  have hcount : (before ++ middle :: after).length = 2 * before.length + 1 := by
    simp [hlength]
    omega
  have hhalf : (2 * before.length + 1) / 2 = before.length := by omega
  rw [median]
  simp only [hcount, hhalf]
  rw [if_neg (by omega)]
  simp

/-- That of an even number is the rounded mean of the two in the middle. -/
theorem median_of_middle_two {before after : List Binary64} (hlength : before.length = after.length)
    (lower upper : Binary64) : median (before ++ lower :: upper :: after) = some ((lower + upper) / 2) := by
  have hcount : (before ++ lower :: upper :: after).length = 2 * (before.length + 1) := by
    simp [hlength]
    omega
  rw [median]
  simp [hcount, List.getElem?_append]

/-- A summary has the least and the greatest of some values in the total order. -/
structure HasExtremes (values : List Binary64) (summary : Summary) : Prop where
  min_mem : summary.min ∈ values
  min_le : ∀ value ∈ values, summary.min.totalLe value = true
  max_mem : summary.max ∈ values
  le_max : ∀ value ∈ values, value.totalLe summary.max = true

/-- The median of a summary lies between its ends in the numeric order, and at least half of the values lie on
    either side of it. -/
structure HasMedian (values : List Binary64) (summary : Summary) : Prop where
  min_le : summary.min ≤ summary.med
  le_max : summary.med ≤ summary.max
  half_le : values.length ≤ 2 * values.countP fun value => value ≤ summary.med
  half_ge : values.length ≤ 2 * values.countP fun value => summary.med ≤ value

/-- The middle two of an even number of values: in ascending order, as many stand before them as after them. -/
def AreMiddleTwo (values : List Binary64) (lower upper : Binary64) : Prop :=
  ∃ before after, before.length = after.length ∧ (before ++ lower :: upper :: after).Perm values ∧
    (before ++ lower :: upper :: after).Pairwise fun value next => value.totalLe next = true

/-- The number of values is even, and the sum of the middle two is out of range. -/
def MiddleOverflows (values : List Binary64) : Prop :=
  ∃ lower upper, AreMiddleTwo values lower upper ∧ (lower + upper).isInfinite = true

variable {values ascending : List Binary64} {summary : Summary}

theorem HasExtremes.of_perm (hextremes : HasExtremes ascending summary) (hperm : ascending.Perm values) :
    HasExtremes values summary := by
  obtain ⟨hmin, hleast, hmax, hgreatest⟩ := hextremes
  exact ⟨hperm.mem_iff.mp hmin, fun value hvalue => hleast value (hperm.mem_iff.mpr hvalue),
    hperm.mem_iff.mp hmax, fun value hvalue => hgreatest value (hperm.mem_iff.mpr hvalue)⟩

theorem HasMedian.of_perm (hmedian : HasMedian ascending summary) (hperm : ascending.Perm values) :
    HasMedian values summary := by
  obtain ⟨hmin, hmax, hbelow, habove⟩ := hmedian
  rw [hperm.length_eq, hperm.countP_eq] at hbelow habove
  exact ⟨hmin, hmax, hbelow, habove⟩

/-- The ends of an ascending list are its extremes. -/
theorem hasExtremes_of_ascending (hascending : ascending.Pairwise fun value next => value.totalLe next = true)
    (hmin : ascending.head? = some summary.min) (hmax : ascending.getLast? = some summary.max) :
    HasExtremes ascending summary := by
  have hrefl : ∀ value : Binary64, value.totalLe value = true := fun value => by simpa using totalLe_total value value
  obtain ⟨later, hlater⟩ := List.head?_eq_some_iff.mp hmin
  obtain ⟨earlier, hearlier⟩ := List.getLast?_eq_some_iff.mp hmax
  refine ⟨List.mem_of_head? hmin, ?_, List.mem_of_getLast? hmax, ?_⟩
  · rw [hlater] at hascending ⊢
    exact List.forall_mem_cons.mpr ⟨hrefl _, (List.pairwise_cons.mp hascending).1⟩
  · rw [hearlier] at hascending ⊢
    simp only [List.forall_mem_append, List.forall_mem_singleton]
    exact ⟨fun value hvalue => (List.pairwise_append.mp hascending).2.2 value hvalue _ List.mem_cons_self, hrefl _⟩

/-- A half of the values that has a property shows that at least half of them have it. -/
theorem length_le_two_mul_countP (part : List Binary64) {p : Binary64 → Bool} (hpart : part.Sublist values)
    (hlength : values.length ≤ 2 * part.length) (hall : ∀ value ∈ part, p value = true) :
    values.length ≤ 2 * values.countP p := by
  have hcount := hpart.countP_le (p := p)
  rw [List.countP_eq_length.mpr hall] at hcount
  omega

/-- What lies between two members of an ascending list halves it, if at least half of the members come up to the
    lower one and at least half from the upper one on. -/
theorem hasMedian_of_between {before rest lead after : List Binary64} {lower upper : Binary64}
    (hnan : ∀ value ∈ ascending, value.isNaN = false)
    (hascending : ascending.Pairwise fun value next => value.totalLe next = true)
    (hextremes : HasExtremes ascending summary)
    (hlower : ascending = before ++ lower :: rest) (hbefore : ascending.length ≤ 2 * (before.length + 1))
    (hupper : ascending = lead ++ upper :: after) (hafter : ascending.length ≤ 2 * (after.length + 1))
    (hbelow : lower ≤ summary.med) (habove : summary.med ≤ upper) : HasMedian ascending summary := by
  have hnumeric : ascending.Pairwise fun value next => value ≤ next :=
    hascending.imp_of_mem fun hvalue hnext hle => le_of_totalLe (hnan _ hvalue) (hnan _ hnext) hle
  have hlow : ∀ value ∈ before ++ [lower], value ≤ summary.med := by
    rw [hlower] at hnumeric
    simp only [List.forall_mem_append, List.forall_mem_singleton]
    refine ⟨fun value hvalue => ?_, hbelow⟩
    exact le_of_le_of_le ((List.pairwise_append.mp hnumeric).2.2 value hvalue lower List.mem_cons_self) hbelow
  have hhigh : ∀ value ∈ upper :: after, summary.med ≤ value := by
    rw [hupper] at hnumeric
    have hlater := (List.pairwise_append.mp hnumeric).2.1
    refine List.forall_mem_cons.mpr ⟨habove, fun value hvalue => ?_⟩
    exact le_of_le_of_le habove ((List.pairwise_cons.mp hlater).1 value hvalue)
  have hlowerMem : lower ∈ ascending := by simp [hlower]
  have hupperMem : upper ∈ ascending := by simp [hupper]
  refine ⟨?_, ?_, ?_, ?_⟩
  · have hmin := le_of_totalLe (hnan _ hextremes.min_mem) (hnan lower hlowerMem) (hextremes.min_le lower hlowerMem)
    exact le_of_le_of_le hmin hbelow
  · have hmax := le_of_totalLe (hnan upper hupperMem) (hnan _ hextremes.max_mem) (hextremes.le_max upper hupperMem)
    exact le_of_le_of_le habove hmax
  · apply length_le_two_mul_countP (before ++ [lower]) _ (by simpa using hbefore) (by simpa using hlow)
    have hfront : ascending = before ++ [lower] ++ rest := hlower.trans (List.append_cons _ _ _)
    rw [hfront]
    exact List.sublist_append_left _ _
  · apply length_le_two_mul_countP (upper :: after) _ (by simpa using hafter) (by simpa using hhigh)
    rw [hupper]
    exact List.sublist_append_right _ _

namespace Summary

/-- The ends of a summary are the extremes, whatever the values are. -/
theorem hasExtremes_of_ofValues? (hsummary : ofValues? values = some summary) : HasExtremes values summary := by
  obtain ⟨hmin, -, hmax⟩ := ofValues?_eq_some_iff.mp hsummary
  exact (hasExtremes_of_ascending (pairwise_sorted values) hmin hmax).of_perm (perm_sorted values)

/-- The median is infinite where the sum of the two values in the middle leaves the format. -/
theorem isInfinite_med_of_middleOverflows (hsummary : ofValues? values = some summary)
    (hoverflow : MiddleOverflows values) : summary.med.isInfinite = true := by
  obtain ⟨lower, upper, ⟨before, after, hlength, hperm, hascending⟩, hsum⟩ := hoverflow
  obtain ⟨-, hmed, -⟩ := ofValues?_eq_some_iff.mp hsummary
  rw [sorted_eq_of_ascending hperm hascending, median_of_middle_two hlength, Option.some.injEq] at hmed
  rw [← hmed]
  exact isInfinite_div_two hsum

/-- Otherwise it has half of the values on either side, since a rounded mean stays between the two numbers. -/
theorem hasMedian_of_ofValues? (hsummary : ofValues? values = some summary)
    (hfinite : ∀ value ∈ values, value.isFinite = true) (hrange : ¬ MiddleOverflows values) :
    HasMedian values summary := by
  have hextremes := hasExtremes_of_ofValues? hsummary
  obtain ⟨hmin, hmed, -⟩ := ofValues?_eq_some_iff.mp hsummary
  have hperm := perm_sorted values
  have hascending := pairwise_sorted values
  replace hextremes := hextremes.of_perm hperm.symm
  replace hfinite : ∀ value ∈ sorted values, value.isFinite = true :=
    fun value hvalue => hfinite value (hperm.mem_iff.mp hvalue)
  have hnan : ∀ value ∈ sorted values, value.isNaN = false :=
    fun value hvalue => isNaN_of_isFinite (hfinite value hvalue)
  refine HasMedian.of_perm ?_ hperm
  have hne : sorted values ≠ [] := by
    rintro hnil
    simp [hnil] at hmin
  obtain ⟨before, after, hlength, ⟨middle, hsplit⟩ | ⟨lower, upper, hsplit⟩⟩ := exists_middle hne
  · rw [hsplit, median_of_middle hlength, Option.some.injEq] at hmed
    have hself : middle ≤ middle := le_self (hnan middle (by simp [hsplit]))
    have hcount : (sorted values).length = before.length + (after.length + 1) := by simp [hsplit]
    exact hasMedian_of_between hnan hascending hextremes hsplit (by omega) hsplit (by omega) (hmed ▸ hself)
      (hmed ▸ hself)
  · rw [hsplit, median_of_middle_two hlength, Option.some.injEq] at hmed
    have hcount : (sorted values).length = before.length + (after.length + 2) := by simp [hsplit]
    have hlower : lower ∈ sorted values := by simp [hsplit]
    have hupper : upper ∈ sorted values := by simp [hsplit]
    have hsum : (lower + upper).isInfinite = false := by
      by_contra hinfinite
      refine hrange ⟨lower, upper, ⟨before, after, hlength, ?_, ?_⟩, by simpa using hinfinite⟩
      · rw [← hsplit]
        exact hperm
      · rw [← hsplit]
        exact hascending
    have hle : lower ≤ upper := by
      apply le_of_totalLe (hnan lower hlower) (hnan upper hupper)
      rw [hsplit] at hascending
      exact (List.pairwise_cons.mp (List.pairwise_append.mp hascending).2.1).1 upper List.mem_cons_self
    obtain ⟨hbelow, habove⟩ := add_div_two_mem (hfinite lower hlower) (hfinite upper hupper) hle hsum
    rw [hmed] at hbelow habove
    exact hasMedian_of_between hnan hascending hextremes hsplit (by omega) (hsplit.trans (List.append_cons _ _ _))
      (by omega) hbelow habove

end Summary

/-- The applications that have values. -/
def valuedApps (apps : List (String × List Binary64)) : List (String × List Binary64) :=
  apps.filter fun app => app.2 ≠ []

/-- The means of the applications that have values: the values added up from left to right, from the negative zero
    on, over their number. -/
def appMeans (apps : List (String × List Binary64)) : List Binary64 :=
  (valuedApps apps).map fun app => app.2.foldl (· + ·) (zero true) / (app.2.length : Binary64)

/-- Applications are summarized by their means. -/
theorem summarize_eq_ofValues?_appMeans (apps : List (String × List Binary64)) :
    summarize apps = Summary.ofValues? (appMeans apps) := by
  have hvalued : (fun app : String × List Binary64 => !app.2.isEmpty) = fun app => decide (app.2 ≠ []) := by
    funext app
    cases app.2 <;> simp
  rw [summarize_eq_ofValues?, hvalued]
  rfl

/-- A summary has order statistics of the means: there is one unless no application has values, it depends on nothing
    but the applications that have, its ends are the extremes, and its median halves finite means unless the sum of
    the middle two overflows. -/
theorem summarize_orderStatistics (apps : List (String × List Binary64)) :
    (summarize apps = none ↔ ∀ app ∈ apps, app.2 = []) ∧
      (∀ others, (valuedApps others).Perm (valuedApps apps) → summarize others = summarize apps) ∧
      ∀ summary, summarize apps = some summary →
        HasExtremes (appMeans apps) summary ∧
          ((∀ mean ∈ appMeans apps, mean.isFinite = true) →
            (¬ MiddleOverflows (appMeans apps) → HasMedian (appMeans apps) summary) ∧
              (MiddleOverflows (appMeans apps) → summary.med.isInfinite = true)) := by
  refine ⟨summarize_eq_none_iff apps, fun others hperm => ?_, fun summary hsummary => ?_⟩
  · have hmeans : sorted (appMeans others) = sorted (appMeans apps) := sorted_eq_of_perm (hperm.map _)
    rw [summarize_eq_ofValues?_appMeans, summarize_eq_ofValues?_appMeans, Summary.ofValues?, Summary.ofValues?, hmeans]
  · rw [summarize_eq_ofValues?_appMeans] at hsummary
    refine ⟨Summary.hasExtremes_of_ofValues? hsummary, fun hfinite => ⟨?_, ?_⟩⟩
    · exact Summary.hasMedian_of_ofValues? hsummary hfinite
    · exact Summary.isInfinite_med_of_middleOverflows hsummary

/-- Four applications with values, one of them a negative zero, and one without. -/
def sampleApps : List (String × List Binary64) :=
  [("a", [1, 2]), ("b", []), ("c", [4]), ("d", [3]), ("e", [zero true])]

def greatestFinite : Binary64 := .number false ⟨infiniteRank - 1, by decide⟩

/-- Two applications whose means have no sum in the format. -/
def hugeApps : List (String × List Binary64) := [("a", [greatestFinite]), ("b", [greatestFinite])]

/-- A sample of four means, in two orders and with an application without values, and one whose median overflows. -/
theorem summarize_sampleApps_hugeApps :
    summarize [sampleApps[4], sampleApps[2], sampleApps[0], sampleApps[3]] = summarize sampleApps ∧
      (summarize sampleApps = some ⟨zero true, 9 / 4, 4⟩ ∧ HasExtremes (appMeans sampleApps) ⟨zero true, 9 / 4, 4⟩ ∧
        HasMedian (appMeans sampleApps) ⟨zero true, 9 / 4, 4⟩) ∧
      MiddleOverflows (appMeans hugeApps) ∧
        ∃ summary, summarize hugeApps = some summary ∧ summary.med.isInfinite = true := by
  obtain ⟨-, hothers, hsample⟩ := summarize_orderStatistics sampleApps
  have hsummary : summarize sampleApps = some ⟨zero true, 9 / 4, 4⟩ := by
    rw [summarize_eq_ofValues?_appMeans]
    exact Summary.ofValues?_of_ascending [zero true, 3 / 2, 3, 4] (by decide +kernel)
      (by decide +kernel) rfl (by decide +kernel) rfl
  obtain ⟨hextremes, hmedian⟩ := hsample _ hsummary
  obtain ⟨hhalves, hoverflows⟩ := hmedian (by decide +kernel)
  have hrange : ¬ MiddleOverflows (appMeans sampleApps) := fun hoverflow =>
    absurd (hoverflows hoverflow) (by decide +kernel)
  refine ⟨hothers _ (by decide +kernel), ⟨hsummary, hextremes, hhalves hrange⟩, ?_⟩
  have hhuge : MiddleOverflows (appMeans hugeApps) :=
    ⟨greatestFinite, greatestFinite, ⟨[], [], rfl, by decide +kernel, by decide +kernel⟩, by decide +kernel⟩
  have hsome : summarize hugeApps = some ⟨greatestFinite, infinity false, greatestFinite⟩ := by
    rw [summarize_eq_ofValues?_appMeans]
    exact Summary.ofValues?_of_ascending (appMeans hugeApps) (.refl _) (by decide +kernel)
      (by decide +kernel) (by decide +kernel) (by decide +kernel)
  obtain ⟨-, hmiddle⟩ := (summarize_orderStatistics hugeApps).2.2 _ hsome
  exact ⟨hhuge, _, hsome, (hmiddle (by decide +kernel)).2 hhuge⟩

end ExperimentCharts
