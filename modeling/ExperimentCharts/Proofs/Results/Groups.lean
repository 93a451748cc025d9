import ExperimentCharts.Proofs.Json.Values
import ExperimentCharts.Results.Reader
import ExperimentCharts.Results.Rows
import Mathlib.Data.List.Nodup

namespace ExperimentCharts

open Binary64 (isFinite_number units unitsPerOne infiniteRank units_one units_pos units_strictMono
  units_infiniteRank le_nearestRank div)
open Json.Reader (gives_pure gives_bind gives_after float_gives list_gives record_gives file_gives)

/-- The intervals of results that were loaded are finite. -/
theorem Results.isFinite_interval_of_read {bytes : List UInt8} {results : List AppResult}
    (hread : Results.read bytes = .ok results) {app : AppResult} (happ : app ∈ results) {workload : Workload}
    (hworkload : workload ∈ app.workloads) : workload.interval.isFinite = true := by
  have hworkloadForm : workloadForm.Keeps fun workload => workload.interval.isFinite = true := by
    refine ⟨Binary64.isFinite_nearest_whole false (by decide), ?_⟩
    simp only [workloadForm, List.forall_mem_cons]
    refine ⟨?_, ?_, ?_, ?_, by simp⟩
    · exact fun value _ => gives_bind float_gives fun _ hfinite => gives_pure hfinite
    all_goals exact fun value hvalue => gives_after fun _ => gives_pure hvalue
  have happForm : appForm.Keeps fun app => ∀ workload ∈ app.workloads, workload.interval.isFinite = true := by
    refine ⟨by simp [appForm], ?_⟩
    simp only [appForm, List.forall_mem_cons]
    refine ⟨?_, ?_, by simp⟩
    · exact fun value hvalue => gives_after fun _ => gives_pure hvalue
    · exact fun value _ => gives_bind (list_gives (record_gives hworkloadForm))
        fun _ hfinite => gives_pure hfinite
  have hfile := file_gives (list_gives (record_gives happForm))
  simp only [Results.read] at hread
  split at hread
  · rename_i found cursor hfound
    cases hread
    exact hfile _ results cursor hfound app happ workload hworkload
  · cases hread

/-- The frequency of a finite interval is a number, and not zero: the largest interval is small enough. -/
theorem Workload.isNonzero_frequency {workload : Workload} (hinterval : workload.interval.isFinite = true) :
    workload.frequency.IsNonzero := by
  obtain ⟨thousand, hthousand, hfinite, hpositive, hunits⟩ : ∃ rank, (1000 : Binary64) = .number false rank ∧
      rank.val ≠ infiniteRank ∧ rank.val ≠ 0 ∧ units rank.val = 1000 * unitsPerOne :=
    ⟨⟨0x408F400000000000, by decide⟩, by decide +kernel, by decide, by decide, by decide +kernel⟩
  rw [Workload.frequency, hthousand]
  cases hvalue : workload.interval with
  | nan negative =>
    rw [hvalue] at hinterval
    cases hinterval
  | number negative rank =>
    rw [hvalue, isFinite_number] at hinterval
    change (div _ _).IsNonzero
    rw [div, if_neg hfinite, if_neg hinterval]
    by_cases hzero : rank.val = 0
    · rw [if_pos hzero, if_neg hpositive]
      exact ⟨_, _, rfl, by decide⟩
    · rw [if_neg hzero, hunits]
      refine ⟨_, _, rfl, ?_⟩
      have hlarge : 2 ^ 1024 ≤ 1000 * unitsPerOne := by decide +kernel
      have hrank : units rank.val ≤ 2 ^ 1024 * unitsPerOne := by
        rw [← units_infiniteRank]
        exact units_strictMono.monotone (Nat.le_of_lt_succ rank.isLt)
      have hle : units 1 * units rank.val ≤ 1000 * unitsPerOne * unitsPerOne := by
        rw [units_one, Nat.one_mul]
        exact Nat.le_trans hrank (Nat.mul_le_mul_right unitsPerOne hlarge)
      exact Nat.ne_of_gt (le_nearestRank (units_pos (Nat.pos_of_ne_zero hzero)) (by decide) hle)

/-- The relative run-times of the runs of an application in one mode and at one frequency, in their order: the elapsed
    times with tracking by those without, over the runs with that many inputs per second. -/
def ratiosOf (runs : List (String × Workload)) (exhaustive : Bool) (frequency : Binary64) (name : String) :
    List Binary64 :=
  (runs.filter fun run => run.1 = name ∧ run.2.exhaustive = exhaustive ∧ 1000 / run.2.interval = frequency).map
    fun run => run.2.tracked / run.2.untracked

/-- One more run of the mode and frequency adds its relative run-time to those of its application. -/
theorem ratiosOf_concat_of_mode {runs : List (String × Workload)} {run : String × Workload} {exhaustive : Bool}
    {frequency : Binary64} (hmode : run.2.exhaustive = exhaustive ∧ run.2.frequency = frequency) :
    ratiosOf (runs ++ [run]) exhaustive frequency = fun name =>
      if name = run.1 then ratiosOf runs exhaustive frequency name ++ [run.2.ratio]
      else ratiosOf runs exhaustive frequency name := by
  rw [Workload.frequency] at hmode
  funext name
  by_cases hname : name = run.1
  · simp [ratiosOf, hname, hmode, Workload.ratio]
  · simp [ratiosOf, hname, Ne.symm hname]

/-- A run of another mode or frequency adds nothing. -/
theorem ratiosOf_concat_of_not_mode {runs : List (String × Workload)} {run : String × Workload}
    {exhaustive : Bool} {frequency : Binary64}
    (hmode : ¬ (run.2.exhaustive = exhaustive ∧ run.2.frequency = frequency)) :
    ratiosOf (runs ++ [run]) exhaustive frequency = ratiosOf runs exhaustive frequency := by
  rw [Workload.frequency] at hmode
  funext name
  simp [ratiosOf, List.filter_append, hmode]

/-- The list holds a map of applications to their values: no application stands in it twice, and all that
    have values stand in it. -/
structure IsMapOf (apps : List (String × List Binary64)) (values : String → List Binary64) : Prop where
  nodup : (apps.map Prod.fst).Nodup
  lookup_eq : ∀ name, apps.lookup name = if values name = [] then none else some (values name)

/-- A value is added to those of its application only. -/
theorem lookup_addRatio (name : String) (ratio : Binary64) (apps : List (String × List Binary64)) (other : String) :
    (addRatio name ratio apps).lookup other =
      if other = name then some ((apps.lookup name).getD [] ++ [ratio]) else apps.lookup other := by
  induction apps with
  | nil =>
    by_cases hother : other = name
    · simp [addRatio, hother]
    · simp [addRatio, List.lookup_cons, hother, beq_false_of_ne hother]
  | cons app apps ih =>
    obtain ⟨key, ratios⟩ := app
    by_cases hkey : key = name
    · by_cases hother : other = name
      · simp [addRatio, hkey, hother]
      · simp [addRatio, List.lookup_cons, hkey, hother, beq_false_of_ne hother]
    · rw [addRatio, if_neg hkey, List.lookup_cons, ih, List.lookup_cons, List.lookup_cons]
      by_cases hother : other = name
      · simp [hother, beq_false_of_ne (Ne.symm hkey)]
      · simp [hother]

/-- A new application comes last. -/
theorem map_fst_addRatio (name : String) (ratio : Binary64) (apps : List (String × List Binary64)) :
    (addRatio name ratio apps).map Prod.fst =
      if name ∈ apps.map Prod.fst then apps.map Prod.fst else apps.map Prod.fst ++ [name] := by
  induction apps with
  | nil => simp [addRatio]
  | cons app apps ih =>
    obtain ⟨key, ratios⟩ := app
    simp only [addRatio]
    by_cases hkey : key = name
    · simp [hkey]
    · rw [if_neg hkey, List.map_cons, ih]
      by_cases hmem : name ∈ apps.map Prod.fst <;> simp [hmem, Ne.symm hkey]

/-- One more value of an application goes to the end of its values, and nothing else changes. -/
theorem IsMapOf.addRatio {apps : List (String × List Binary64)} {values : String → List Binary64}
    (hmap : IsMapOf apps values) (name : String) (ratio : Binary64) :
    IsMapOf (addRatio name ratio apps) fun other =>
      if other = name then values other ++ [ratio] else values other := by
  refine ⟨?_, ?_⟩
  · rw [map_fst_addRatio]
    by_cases hmem : name ∈ apps.map Prod.fst
    · rw [if_pos hmem]
      exact hmap.nodup
    · rw [if_neg hmem]
      exact hmap.nodup.append (List.nodup_singleton name) (List.disjoint_singleton.mpr hmem)
  · intro other
    rw [lookup_addRatio, hmap.lookup_eq, hmap.lookup_eq]
    by_cases hother : other = name
    · by_cases hempty : values name = [] <;> simp [hother, hempty]
    · simp [hother]

namespace FrequencyGroup

/-- The relative run-times of a group in one mode. -/
def mode (group : FrequencyGroup) (exhaustive : Bool) : List (String × List Binary64) :=
  if exhaustive then group.exhaustive else group.selective

@[simp]
theorem frequency_add (group : FrequencyGroup) (name : String) (workload : Workload) :
    (group.add name workload).frequency = group.frequency := by
  unfold add
  split <;> rfl

/-- A run changes the mode it was made in only. -/
theorem mode_add (group : FrequencyGroup) (name : String) (workload : Workload) (exhaustive : Bool) :
    (group.add name workload).mode exhaustive =
      if workload.exhaustive = exhaustive then addRatio name workload.ratio (group.mode exhaustive)
      else group.mode exhaustive := by
  cases hworkload : workload.exhaustive <;> cases exhaustive <;> simp [add, mode, hworkload]

/-- A group of the right frequency that is right for the runs so far is right after one more run. -/
theorem isMapOf_mode_add {group : FrequencyGroup} {runs : List (String × Workload)} {name : String}
    {workload : Workload} (hfrequency : workload.frequency = group.frequency) {exhaustive : Bool}
    (hmap : IsMapOf (group.mode exhaustive) (ratiosOf runs exhaustive group.frequency)) :
    IsMapOf ((group.add name workload).mode exhaustive)
      (ratiosOf (runs ++ [(name, workload)]) exhaustive group.frequency) := by
  rw [mode_add]
  by_cases hmode : workload.exhaustive = exhaustive
  · rw [if_pos hmode, ratiosOf_concat_of_mode ⟨hmode, hfrequency⟩]
    exact hmap.addRatio name workload.ratio
  · rw [if_neg hmode, ratiosOf_concat_of_not_mode fun hboth => hmode hboth.1]
    exact hmap

variable {groups : List FrequencyGroup} {workload : Workload}

/-- A run of a new frequency makes a group of its own. -/
theorem addTo_of_not_mem (name : String) (hworkload : workload.frequency.IsNonzero)
    (hnew : workload.frequency ∉ groups.map frequency) :
    addTo name workload groups = groups ++ [(empty workload.frequency).add name workload] := by
  induction groups with
  | nil => rfl
  | cons group groups ih =>
    rw [List.map_cons, List.mem_cons, not_or] at hnew
    have hother : ¬ group.frequency.equal workload.frequency = true := by
      rw [Binary64.equal_iff_eq hworkload]
      exact Ne.symm hnew.1
    rw [addTo, if_neg hother, ih hnew.2, List.cons_append]

/-- In groups of distinct frequencies one more run changes the group of its frequency only. -/
theorem addTo_of_mem (name : String) (hworkload : workload.frequency.IsNonzero)
    (hnodup : (groups.map frequency).Nodup)
    (hold : workload.frequency ∈ groups.map frequency) :
    addTo name workload groups =
      groups.map fun group => if workload.frequency = group.frequency then group.add name workload else group := by
  induction groups with
  | nil => cases hold
  | cons group groups ih =>
    rw [List.map_cons, List.nodup_cons] at hnodup
    rw [addTo, List.map_cons]
    by_cases heq : workload.frequency = group.frequency
    · have hequal : group.frequency.equal workload.frequency = true :=
        (Binary64.equal_iff_eq hworkload).mpr heq.symm
      have hothers : (groups.map fun group =>
          if workload.frequency = group.frequency then group.add name workload else group) = groups := by
        conv_rhs => rw [← List.map_id groups]
        apply List.map_congr_left
        intro other hother
        apply if_neg
        intro hsame
        exact hnodup.1 (heq.symm.trans hsame ▸ List.mem_map_of_mem hother)
      rw [if_pos hequal, if_pos heq, hothers]
    · have hother : ¬ group.frequency.equal workload.frequency = true := by
        rw [Binary64.equal_iff_eq hworkload]
        exact Ne.symm heq
      have hlater : workload.frequency ∈ groups.map frequency := by
        simpa [heq] using hold
      rw [if_neg hother, if_neg heq, ih hnodup.2 hlater]

end FrequencyGroup

/-- The groups are right for some runs: one for each frequency, and in each mode the relative run-times of
    exactly the runs of that mode and frequency. -/
structure IsGroupingOf (groups : List FrequencyGroup) (runs : List (String × Workload)) : Prop where
  nodup : (groups.map FrequencyGroup.frequency).Nodup
  mem_iff : ∀ frequency, frequency ∈ groups.map FrequencyGroup.frequency ↔
    ∃ run ∈ runs, run.2.frequency = frequency
  mode : ∀ group ∈ groups, ∀ exhaustive,
    IsMapOf (group.mode exhaustive) (ratiosOf runs exhaustive group.frequency)

/-- Without runs of a frequency there is nothing in its group. -/
theorem isMapOf_nil {runs : List (String × Workload)} {frequency : Binary64}
    (hnone : ¬ ∃ run ∈ runs, run.2.frequency = frequency) (exhaustive : Bool) :
    IsMapOf [] (ratiosOf runs exhaustive frequency) := by
  refine ⟨List.nodup_nil, fun name => ?_⟩
  have hempty : ratiosOf runs exhaustive frequency name = [] := by
    rw [ratiosOf, List.map_eq_nil_iff, List.filter_eq_nil_iff]
    intro run hrun
    have hother : 1000 / run.2.interval ≠ frequency := fun heq => hnone ⟨run, hrun, heq⟩
    simp [hother]
  rw [if_pos hempty, List.lookup_nil]

namespace IsGroupingOf

variable {groups : List FrequencyGroup} {runs : List (String × Workload)} {workload : Workload}

/-- A run of a frequency that has a group changes that group. -/
theorem change (hgrouping : IsGroupingOf groups runs) (name : String)
    (hold : workload.frequency ∈ groups.map FrequencyGroup.frequency) :
    IsGroupingOf (groups.map fun group =>
        if workload.frequency = group.frequency then group.add name workload else group)
      (runs ++ [(name, workload)]) := by
  have hfrequencies : (groups.map fun group =>
      if workload.frequency = group.frequency then group.add name workload else group).map
        FrequencyGroup.frequency = groups.map FrequencyGroup.frequency := by
    rw [List.map_map]
    apply List.map_congr_left
    intro group _
    simp only [Function.comp_apply]
    split <;> simp
  refine ⟨hfrequencies ▸ hgrouping.nodup, ?_, ?_⟩
  · intro frequency
    rw [hfrequencies, hgrouping.mem_iff]
    constructor
    · rintro ⟨run, hrun, hfrequency⟩
      exact ⟨run, List.mem_append_left _ hrun, hfrequency⟩
    · rintro ⟨run, hrun, rfl⟩
      rcases List.mem_append.mp hrun with hrun | hrun
      · exact ⟨run, hrun, rfl⟩
      · rw [List.mem_singleton.mp hrun]
        exact (hgrouping.mem_iff _).mp hold
  · intro changed hchanged exhaustive
    obtain ⟨group, hgroup, rfl⟩ := List.mem_map.mp hchanged
    have hmap := hgrouping.mode group hgroup exhaustive
    by_cases hfrequency : workload.frequency = group.frequency
    · rw [if_pos hfrequency, FrequencyGroup.frequency_add]
      exact FrequencyGroup.isMapOf_mode_add hfrequency hmap
    · rw [if_neg hfrequency, ratiosOf_concat_of_not_mode fun hboth => hfrequency hboth.2]
      exact hmap

/-- A run of a new frequency makes a group of its own. -/
theorem concat (hgrouping : IsGroupingOf groups runs) (name : String)
    (hnew : workload.frequency ∉ groups.map FrequencyGroup.frequency) :
    IsGroupingOf (groups ++ [(FrequencyGroup.empty workload.frequency).add name workload])
      (runs ++ [(name, workload)]) := by
  refine ⟨?_, ?_, ?_⟩
  · rw [List.map_append, List.map_singleton, FrequencyGroup.frequency_add]
    exact hgrouping.nodup.append (List.nodup_singleton _) (List.disjoint_singleton.mpr hnew)
  · intro frequency
    rw [List.map_append, List.mem_append, hgrouping.mem_iff]
    simp [FrequencyGroup.empty, or_and_right, exists_or, eq_comm]
  · intro group hgroup exhaustive
    rcases List.mem_append.mp hgroup with hgroup | hgroup
    · have hother : workload.frequency ≠ group.frequency := fun heq => hnew (heq ▸ List.mem_map_of_mem hgroup)
      rw [ratiosOf_concat_of_not_mode fun hboth => hother hboth.2]
      exact hgrouping.mode group hgroup exhaustive
    · rw [List.mem_singleton.mp hgroup, FrequencyGroup.frequency_add]
      apply FrequencyGroup.isMapOf_mode_add rfl
      have hnone := (hgrouping.mem_iff workload.frequency).not.mp hnew
      cases exhaustive <;> exact isMapOf_nil hnone _

theorem isNonzero_frequency (hgrouping : IsGroupingOf groups runs)
    (hruns : ∀ run ∈ runs, run.2.frequency.IsNonzero) : ∀ group ∈ groups, group.frequency.IsNonzero := by
  intro group hgroup
  obtain ⟨run, hrun, hfrequency⟩ := (hgrouping.mem_iff group.frequency).mp (List.mem_map_of_mem hgroup)
  exact hfrequency ▸ hruns run hrun

/-- One more run keeps the groups right. -/
theorem addTo (hgrouping : IsGroupingOf groups runs) (name : String) (hworkload : workload.frequency.IsNonzero) :
    IsGroupingOf (FrequencyGroup.addTo name workload groups) (runs ++ [(name, workload)]) := by
  by_cases hold : workload.frequency ∈ groups.map FrequencyGroup.frequency
  · rw [FrequencyGroup.addTo_of_mem name hworkload hgrouping.nodup hold]
    exact hgrouping.change name hold
  · rw [FrequencyGroup.addTo_of_not_mem name hworkload hold]
    exact hgrouping.concat name hold

/-- The groups stay right along any number of runs. -/
theorem foldl {groups : List FrequencyGroup} {before : List (String × Workload)} (rest : List (String × Workload))
    (hrest : ∀ run ∈ rest, run.2.frequency.IsNonzero) (hgrouping : IsGroupingOf groups before) :
    IsGroupingOf (rest.foldl (fun groups run => FrequencyGroup.addTo run.1 run.2 groups) groups)
      (before ++ rest) := by
  induction rest generalizing groups before with
  | nil => simpa using hgrouping
  | cons run rest ih =>
    obtain ⟨hrun, hrest⟩ := List.forall_mem_cons.mp hrest
    have hstep : IsGroupingOf (FrequencyGroup.addTo run.1 run.2 groups) (before ++ [run]) :=
      hgrouping.addTo run.1 hrun
    simpa using ih hrest hstep

end IsGroupingOf

/-- After all runs each group holds, for each mode and application, exactly the relative run-times of the runs that
    belong there, in file order. -/
theorem isGroupingOf_frequencyGroups {results : List AppResult}
    (hruns : ∀ run ∈ allRuns results, run.2.frequency.IsNonzero) :
    IsGroupingOf (frequencyGroups results) (allRuns results) := by
  have hstart : IsGroupingOf [] [] := ⟨List.nodup_nil, by simp, by simp⟩
  exact hstart.foldl (allRuns results) hruns

end ExperimentCharts
