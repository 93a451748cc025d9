import ExperimentCharts.Proofs.Binary64.Order
import ExperimentCharts.Proofs.Results.Groups
import ExperimentCharts.Proofs.Table.Columns
import Mathlib.Data.List.Dedup

namespace ExperimentCharts

/-- A summary depends on the applications and their values, not on their order. -/
theorem summarize_eq_of_perm {apps others : List (String × List Binary64)} (hperm : apps.Perm others) :
    summarize apps = summarize others := by
  have hmeans : sortedMeans apps = sortedMeans others :=
    Binary64.sorted_eq_of_perm ((hperm.filter _).map _)
  rw [summarize, summarize, hmeans]

theorem exists_median {sorted : List Binary64} (hsorted : sorted ≠ []) : ∃ value, median sorted = some value := by
  have hlength := List.length_pos_iff.mpr hsorted
  unfold median
  dsimp only
  split
  · rw [List.getElem?_eq_getElem (by omega), List.getElem?_eq_getElem (by omega)]
    exact ⟨_, rfl⟩
  · rw [List.getElem?_eq_getElem (by omega)]
    exact ⟨_, rfl⟩

/-- There is no summary only if no application has values. -/
theorem summarize_eq_none_iff (apps : List (String × List Binary64)) :
    summarize apps = none ↔ ∀ app ∈ apps, app.2 = [] := by
  have hempty : sortedMeans apps = [] ↔ ∀ app ∈ apps, app.2 = [] := by
    rw [← List.length_eq_zero_iff, sortedMeans, Binary64.sorted, List.length_mergeSort, List.length_map,
      List.length_eq_zero_iff, List.filter_eq_nil_iff]
    simp
  rw [← hempty, summarize]
  constructor
  · intro hnone
    by_contra hmeans
    obtain ⟨med, hmed⟩ := exists_median hmeans
    rw [List.head?_eq_some_head hmeans, hmed, List.getLast?_eq_some_getLast hmeans] at hnone
    cases hnone
  · intro hmeans
    rw [hmeans]
    rfl

namespace Summary

/-- The least, the median and the greatest of some values. -/
def ofValues? (values : List Binary64) : Option Summary := do
  let sorted := Binary64.sorted values
  return ⟨← sorted.head?, ← median sorted, ← sorted.getLast?⟩

variable {values : List Binary64} {summary : Summary}

/-- A summary has the ends and the middle of the sorted values. -/
theorem ofValues?_eq_some_iff :
    ofValues? values = some summary ↔ (Binary64.sorted values).head? = some summary.min ∧
      median (Binary64.sorted values) = some summary.med ∧ (Binary64.sorted values).getLast? = some summary.max := by
  obtain ⟨min, med, max⟩ := summary
  simp only [ofValues?, bind, pure, Option.bind_eq_some_iff, Option.some.injEq, Summary.mk.injEq]
  constructor
  · rintro ⟨_, hmin, _, hmed, _, hmax, rfl, rfl, rfl⟩
    exact ⟨hmin, hmed, hmax⟩
  · rintro ⟨hmin, hmed, hmax⟩
    exact ⟨min, hmin, med, hmed, max, hmax, rfl, rfl, rfl⟩

/-- The summary can be read off any ascending arrangement of the values. -/
theorem ofValues?_of_ascending (ascending : List Binary64) (hperm : ascending.Perm values)
    (hascending : ascending.Pairwise fun value next => value.totalLe next = true)
    (hmin : ascending.head? = some summary.min) (hmed : median ascending = some summary.med)
    (hmax : ascending.getLast? = some summary.max) : ofValues? values = some summary := by
  rw [ofValues?_eq_some_iff, Binary64.sorted_eq_of_ascending hperm hascending]
  exact ⟨hmin, hmed, hmax⟩

end Summary

/-- Applications are summarized by the means of those that have values. -/
theorem summarize_eq_ofValues? (apps : List (String × List Binary64)) :
    summarize apps = Summary.ofValues? ((apps.filter fun app => !app.2.isEmpty).map fun app => mean app.2) := rfl

/-- In a map with distinct names a name has the values that are found under it. -/
theorem mem_iff_lookup_eq {apps : List (String × List Binary64)} (hnodup : (apps.map Prod.fst).Nodup)
    (name : String) (ratios : List Binary64) : (name, ratios) ∈ apps ↔ apps.lookup name = some ratios := by
  induction apps with
  | nil => simp
  | cons app apps ih =>
    obtain ⟨key, values⟩ := app
    rw [List.map_cons, List.nodup_cons] at hnodup
    by_cases hkey : name = key
    · subst hkey
      have hlater : (name, ratios) ∉ apps := fun hmem => hnodup.1 (List.mem_map.mpr ⟨_, hmem, rfl⟩)
      simp [hlater, eq_comm]
    · rw [List.lookup_cons, beq_false_of_ne hkey, ← ih hnodup.2]
      simp [hkey]

/-- Two lists that hold the same map have the same entries. -/
theorem IsMapOf.perm {apps others : List (String × List Binary64)} {values : String → List Binary64}
    (happs : IsMapOf apps values) (hothers : IsMapOf others values) : apps.Perm others := by
  rw [List.perm_ext_iff_of_nodup happs.nodup.of_map hothers.nodup.of_map]
  rintro ⟨name, ratios⟩
  rw [mem_iff_lookup_eq happs.nodup, mem_iff_lookup_eq hothers.nodup, happs.lookup_eq, hothers.lookup_eq]

/-- The applications that have runs in one mode and at one frequency, in the order of their names. -/
def appsWithRuns (results : List AppResult) (exhaustive : Bool) (frequency : Binary64) : List String :=
  let runs := (allRuns results).filter fun run => run.2.exhaustive = exhaustive ∧ 1000 / run.2.interval = frequency
  (runs.map Prod.fst).dedup.mergeSort fun a b => decide (a ≤ b)

/-- Those applications, each with the relative run-times of its runs in that mode and at that frequency, in
    file order. -/
def ratioMap (results : List AppResult) (exhaustive : Bool) (frequency : Binary64) :
    List (String × List Binary64) :=
  (appsWithRuns results exhaustive frequency).map fun name =>
    (name, ratiosOf (allRuns results) exhaustive frequency name)

/-- Each application is named once. -/
theorem nodup_appsWithRuns (results : List AppResult) (exhaustive : Bool) (frequency : Binary64) :
    (appsWithRuns results exhaustive frequency).Nodup := by
  rw [appsWithRuns, (List.mergeSort_perm _ _).nodup_iff]
  exact List.nodup_dedup _

/-- An application has values if it has a run of that mode and frequency. -/
theorem ratiosOf_ne_nil_iff (runs : List (String × Workload)) (exhaustive : Bool) (frequency : Binary64)
    (name : String) : ratiosOf runs exhaustive frequency name ≠ [] ↔
      ∃ run ∈ runs, run.1 = name ∧ run.2.exhaustive = exhaustive ∧ 1000 / run.2.interval = frequency := by
  simp [ratiosOf, List.filter_eq_nil_iff]

theorem mem_appsWithRuns_iff (results : List AppResult) (exhaustive : Bool) (frequency : Binary64) (name : String) :
    name ∈ appsWithRuns results exhaustive frequency ↔
      ratiosOf (allRuns results) exhaustive frequency name ≠ [] := by
  rw [ratiosOf_ne_nil_iff, appsWithRuns, List.mem_mergeSort, List.mem_dedup]
  simp only [List.mem_map, List.mem_filter, decide_eq_true_eq]
  constructor
  · rintro ⟨run, ⟨hrun, hmode⟩, rfl⟩
    exact ⟨run, hrun, rfl, hmode⟩
  · rintro ⟨run, hrun, rfl, hmode⟩
    exact ⟨run, ⟨hrun, hmode⟩, rfl⟩

theorem lookup_map_pair (names : List String) (values : String → List Binary64) (name : String) :
    (names.map fun name => (name, values name)).lookup name =
      if name ∈ names then some (values name) else none := by
  induction names with
  | nil => rfl
  | cons first names ih =>
    rw [List.map_cons, List.lookup_cons, ih]
    by_cases hfirst : name = first
    · simp [hfirst]
    · simp [hfirst, beq_false_of_ne hfirst]

/-- Names with the values of each make a map of the values. -/
theorem isMapOf_map_pair {names : List String} {values : String → List Binary64} (hnodup : names.Nodup)
    (hmem : ∀ name, name ∈ names ↔ values name ≠ []) :
    IsMapOf (names.map fun name => (name, values name)) values := by
  refine ⟨by simpa [Function.comp_def] using hnodup, fun name => ?_⟩
  simp [lookup_map_pair, hmem]

theorem isMapOf_ratioMap (results : List AppResult) (exhaustive : Bool) (frequency : Binary64) :
    IsMapOf (ratioMap results exhaustive frequency) (ratiosOf (allRuns results) exhaustive frequency) :=
  isMapOf_map_pair (nodup_appsWithRuns results exhaustive frequency) (mem_appsWithRuns_iff results exhaustive frequency)

/-- The order of the groups does not matter for what they hold. -/
theorem IsGroupingOf.of_perm {groups others : List FrequencyGroup} {runs : List (String × Workload)}
    (hgrouping : IsGroupingOf groups runs) (hperm : others.Perm groups) : IsGroupingOf others runs := by
  have hfrequencies := hperm.map FrequencyGroup.frequency
  refine ⟨hfrequencies.nodup_iff.mpr hgrouping.nodup, ?_, ?_⟩
  · intro frequency
    rw [hfrequencies.mem_iff, hgrouping.mem_iff]
  · intro group hgroup
    exact hgrouping.mode group (hperm.mem_iff.mp hgroup)

/-- Groups of distinct frequencies are sorted strictly, whatever order sorting gives to equal ones. -/
theorem pairwise_lt_mergeSort {groups : List FrequencyGroup}
    (hnodup : (groups.map FrequencyGroup.frequency).Nodup)
    (hnonzero : ∀ group ∈ groups, group.frequency.IsNonzero) :
    (groups.mergeSort fun a b => a.frequency.totalLe b.frequency).Pairwise
      fun a b => a.frequency < b.frequency := by
  have hperm := List.mergeSort_perm groups fun a b => a.frequency.totalLe b.frequency
  have hsorted : (groups.mergeSort fun a b => a.frequency.totalLe b.frequency).Pairwise
      fun a b => a.frequency.totalLe b.frequency = true :=
    List.pairwise_mergeSort (fun a b c => Binary64.totalLe_trans a.frequency b.frequency c.frequency)
      (fun a b => Binary64.totalLe_total a.frequency b.frequency) groups
  have hdistinct := List.pairwise_map.mp ((hperm.map FrequencyGroup.frequency).nodup_iff.mpr hnodup)
  refine (hsorted.and hdistinct).imp_of_mem ?_
  intro a b ha hb hab
  exact Binary64.lt_of_totalLe (hnonzero a (hperm.mem_iff.mp ha)) (hnonzero b (hperm.mem_iff.mp hb)) hab.1 hab.2

/-- The summary of a row in one mode. -/
def AreaRow.mode (row : AreaRow) (exhaustive : Bool) : Option Summary :=
  if exhaustive then row.exhaustive else row.selective

/-- A run of the results is one of an entry of them. -/
theorem exists_mem_allRuns_iff (results : List AppResult) (p : Workload → Prop) :
    (∃ run ∈ allRuns results, p run.2) ↔ ∃ app ∈ results, ∃ workload ∈ app.workloads, p workload := by
  constructor
  · rintro ⟨run, hrun, hp⟩
    obtain ⟨app, happ, hrun⟩ := List.mem_flatMap.mp hrun
    obtain ⟨workload, hworkload, rfl⟩ := List.mem_map.mp hrun
    exact ⟨app, happ, workload, hworkload, hp⟩
  · rintro ⟨app, happ, workload, hworkload, hp⟩
    exact ⟨(app.name, workload), List.mem_flatMap.mpr ⟨app, happ, List.mem_map_of_mem hworkload⟩, hp⟩

/-- The rows come from groups in ascending order that are right for all runs. -/
theorem exists_groups_of_areaRows {results : List AppResult}
    (hruns : ∀ run ∈ allRuns results, run.2.frequency.IsNonzero) :
    ∃ groups, IsGroupingOf groups (allRuns results) ∧ groups.Pairwise (fun a b => a.frequency < b.frequency) ∧
      areaRows results =
        groups.map fun group => ⟨group.frequency, summarize group.selective, summarize group.exhaustive⟩ := by
  have hgrouping := isGroupingOf_frequencyGroups hruns
  have hnonzero := hgrouping.isNonzero_frequency hruns
  exact ⟨_, hgrouping.of_perm (List.mergeSort_perm _ _), pairwise_lt_mergeSort hgrouping.nodup hnonzero, rfl⟩

/-- The rows are those of the frequencies that occur. -/
theorem exists_mem_areaRows_iff {results : List AppResult}
    (hruns : ∀ run ∈ allRuns results, run.2.frequency.IsNonzero) (frequency : Binary64) :
    (∃ row ∈ areaRows results, row.frequency = frequency) ↔ ∃ run ∈ allRuns results, run.2.frequency = frequency := by
  obtain ⟨groups, hgrouping, -, hrows⟩ := exists_groups_of_areaRows hruns
  rw [← hgrouping.mem_iff, hrows]
  simp

/-- The rows are strictly ascending, so that there is one for each frequency. -/
theorem pairwise_lt_areaRows {results : List AppResult}
    (hruns : ∀ run ∈ allRuns results, run.2.frequency.IsNonzero) :
    (areaRows results).Pairwise fun a b => a.frequency < b.frequency := by
  obtain ⟨groups, -, hpairwise, hrows⟩ := exists_groups_of_areaRows hruns
  rw [hrows, List.pairwise_map]
  exact hpairwise

/-- In each mode a row summarizes any list that holds the map of the runs of its frequency. -/
theorem mode_eq_summarize_of_isMapOf {results : List AppResult}
    (hruns : ∀ run ∈ allRuns results, run.2.frequency.IsNonzero) {row : AreaRow} (hrow : row ∈ areaRows results)
    {exhaustive : Bool} {apps : List (String × List Binary64)}
    (happs : IsMapOf apps (ratiosOf (allRuns results) exhaustive row.frequency)) :
    row.mode exhaustive = summarize apps := by
  obtain ⟨groups, hgrouping, -, hrows⟩ := exists_groups_of_areaRows hruns
  rw [hrows] at hrow
  obtain ⟨group, hgroup, rfl⟩ := List.mem_map.mp hrow
  rw [← summarize_eq_of_perm ((hgrouping.mode group hgroup exhaustive).perm happs)]
  cases exhaustive <;> rfl

end ExperimentCharts
