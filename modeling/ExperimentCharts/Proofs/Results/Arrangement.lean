import ExperimentCharts.Proofs.Results.AreaRows

namespace ExperimentCharts

/-- The workloads of an application, over all its entries and in file order. -/
def workloadsOf (results : List AppResult) (name : String) : List Workload :=
  (results.filter fun app => app.name = name).flatMap AppResult.workloads

theorem workloadsOf_cons (app : AppResult) (results : List AppResult) (name : String) :
    workloadsOf (app :: results) name =
      if app.name = name then app.workloads ++ workloadsOf results name else workloadsOf results name := by
  by_cases hname : app.name = name <;> simp [workloadsOf, hname]

/-- The entries of distinct names that bear a given one are one or none. -/
theorem filter_name_eq {results : List AppResult} (hnodup : (results.map AppResult.name).Nodup) {app : AppResult}
    (happ : app ∈ results) : (results.filter fun other => other.name = app.name) = [app] := by
  induction results with
  | nil => cases happ
  | cons first results ih =>
    rw [List.map_cons, List.nodup_cons] at hnodup
    rcases List.mem_cons.mp happ with rfl | happ
    · have hothers : (results.filter fun other => other.name = app.name) = [] := by
        rw [List.filter_eq_nil_iff]
        intro other hother hname
        exact hnodup.1 (of_decide_eq_true hname ▸ List.mem_map_of_mem hother)
      rw [List.filter_cons_of_pos (by simp), hothers]
    · have hfirst : first.name ≠ app.name := fun hname => hnodup.1 (hname ▸ List.mem_map_of_mem happ)
      rw [List.filter_cons_of_neg (by simp [hfirst]), ih hnodup.2 happ]

/-- An entry whose name is not repeated has all runs of its application. -/
theorem workloadsOf_of_mem {results : List AppResult} (hnodup : (results.map AppResult.name).Nodup)
    {app : AppResult} (happ : app ∈ results) : workloadsOf results app.name = app.workloads := by
  rw [workloadsOf, filter_name_eq hnodup happ, List.flatMap_singleton]

theorem workloadsOf_eq_nil {results : List AppResult} {name : String}
    (hname : name ∉ results.map AppResult.name) : workloadsOf results name = [] := by
  have hnone : (results.filter fun app => app.name = name) = [] := by
    rw [List.filter_eq_nil_iff]
    intro app happ heq
    exact hname (of_decide_eq_true heq ▸ List.mem_map_of_mem happ)
  rw [workloadsOf, hnone, List.flatMap_nil]

/-- Entries of distinct names may change places. -/
theorem workloadsOf_eq_of_perm {results others : List AppResult} (hperm : results.Perm others)
    (hnodup : (results.map AppResult.name).Nodup) (name : String) :
    workloadsOf results name = workloadsOf others name := by
  have hnames := hperm.map AppResult.name
  by_cases hname : name ∈ results.map AppResult.name
  · obtain ⟨app, happ, rfl⟩ := List.mem_map.mp hname
    rw [workloadsOf_of_mem hnodup happ, workloadsOf_of_mem (hnames.nodup_iff.mp hnodup) (hperm.mem_iff.mp happ)]
  · rw [workloadsOf_eq_nil hname, workloadsOf_eq_nil fun hother => hname (hnames.mem_iff.mpr hother)]

/-- Whether a workload is of the given mode and frequency. -/
def Workload.inGroup (workload : Workload) (exhaustive : Bool) (frequency : Binary64) : Bool :=
  workload.exhaustive = exhaustive ∧ 1000 / workload.interval = frequency

/-- The relative run-times of an application come from its own workloads. -/
theorem ratiosOf_allRuns (results : List AppResult) (exhaustive : Bool) (frequency : Binary64) (name : String) :
    ratiosOf (allRuns results) exhaustive frequency name =
      ((workloadsOf results name).filter fun workload => workload.inGroup exhaustive frequency).map
        fun workload => workload.tracked / workload.untracked := by
  induction results with
  | nil => rfl
  | cons app results ih =>
    have hsplit : ratiosOf (allRuns (app :: results)) exhaustive frequency name =
        ratiosOf (app.workloads.map fun workload => (app.name, workload)) exhaustive frequency name ++
          ratiosOf (allRuns results) exhaustive frequency name := by
      simp [ratiosOf, allRuns]
    rw [hsplit, ih, workloadsOf_cons]
    by_cases hname : app.name = name
    · rw [if_pos hname, List.filter_append, List.map_append]
      simp [ratiosOf, List.filter_map, Function.comp_def, hname, Workload.inGroup]
    · rw [if_neg hname]
      simp [ratiosOf, List.filter_map, Function.comp_def, hname]

/-- Two lists of entries that differ only in how the runs of different groups follow each other. -/
def SameGroups (results others : List AppResult) : Prop :=
  List.Forall₂ (fun app other => app.name = other.name ∧ ∀ exhaustive frequency,
    (app.workloads.filter fun workload => workload.inGroup exhaustive frequency) =
      other.workloads.filter fun workload => workload.inGroup exhaustive frequency) results others

/-- Such lists have the same relative run-times in every group. -/
theorem SameGroups.ratiosOf_eq {results others : List AppResult} (hsame : SameGroups results others)
    (exhaustive : Bool) (frequency : Binary64) (name : String) :
    ratiosOf (allRuns results) exhaustive frequency name = ratiosOf (allRuns others) exhaustive frequency name := by
  rw [ratiosOf_allRuns, ratiosOf_allRuns]
  congr 1
  induction hsame with
  | nil => rfl
  | @cons app other results others happ _ ih =>
    obtain ⟨hname, hgroups⟩ := happ
    rw [workloadsOf_cons, workloadsOf_cons, hname]
    by_cases hother : other.name = name
    · rw [if_pos hother, if_pos hother, List.filter_append, List.filter_append, hgroups, ih]
    · rw [if_neg hother, if_neg hother, ih]

theorem isNonzero_frequency_of_finite {results : List AppResult}
    (hfinite : ∀ app ∈ results, ∀ workload ∈ app.workloads, workload.interval.isFinite = true) :
    ∀ run ∈ allRuns results, run.2.frequency.IsNonzero := by
  intro run hrun
  obtain ⟨app, happ, workload, hworkload, heq⟩ :=
    (exists_mem_allRuns_iff results (· = run.2)).mp ⟨run, hrun, rfl⟩
  exact heq ▸ Workload.isNonzero_frequency (hfinite app happ workload hworkload)

/-- A frequency is that of a run if some application has values at it. -/
theorem exists_frequency_iff (runs : List (String × Workload)) (frequency : Binary64) :
    (∃ run ∈ runs, run.2.frequency = frequency) ↔
      ∃ exhaustive name, ratiosOf runs exhaustive frequency name ≠ [] := by
  simp only [ratiosOf_ne_nil_iff]
  constructor
  · rintro ⟨run, hrun, hfrequency⟩
    exact ⟨run.2.exhaustive, run.1, run, hrun, rfl, rfl, hfrequency⟩
  · rintro ⟨exhaustive, name, run, hrun, -, -, hfrequency⟩
    exact ⟨run, hrun, hfrequency⟩

theorem AreaRow.eq_of_mode {row other : AreaRow} (hfrequency : row.frequency = other.frequency)
    (hmode : ∀ exhaustive, row.mode exhaustive = other.mode exhaustive) : row = other := by
  obtain ⟨frequency, selective, exhaustive⟩ := row
  obtain ⟨frequency', selective', exhaustive'⟩ := other
  have hselective : selective = selective' := hmode false
  have hexhaustive : exhaustive = exhaustive' := hmode true
  simp only at hfrequency
  rw [hfrequency, hselective, hexhaustive]

/-- A row of some results is a row of all results with the same groups. -/
theorem mem_areaRows_of_ratiosOf_eq {results others : List AppResult}
    (hresults : ∀ run ∈ allRuns results, run.2.frequency.IsNonzero)
    (hothers : ∀ run ∈ allRuns others, run.2.frequency.IsNonzero)
    (hratios : ∀ exhaustive frequency name, ratiosOf (allRuns results) exhaustive frequency name =
      ratiosOf (allRuns others) exhaustive frequency name) {row : AreaRow} (hrow : row ∈ areaRows results) :
    row ∈ areaRows others := by
  have hfrequency : ∃ run ∈ allRuns others, run.2.frequency = row.frequency := by
    have hrun := (exists_mem_areaRows_iff hresults row.frequency).mp ⟨row, hrow, rfl⟩
    rw [exists_frequency_iff] at hrun ⊢
    simpa only [hratios] using hrun
  obtain ⟨other, hother, hsame⟩ := (exists_mem_areaRows_iff hothers row.frequency).mpr hfrequency
  have heq : row = other := by
    refine AreaRow.eq_of_mode hsame.symm fun exhaustive => ?_
    have hmap := isMapOf_ratioMap results exhaustive row.frequency
    have hothersMap : IsMapOf (ratioMap results exhaustive row.frequency)
        (ratiosOf (allRuns others) exhaustive other.frequency) := by
      rwa [hsame, ← funext (hratios exhaustive row.frequency)]
    rw [mode_eq_summarize_of_isMapOf hresults hrow hmap, mode_eq_summarize_of_isMapOf hothers hother hothersMap]
  exact heq ▸ hother

theorem nodup_areaRows {results : List AppResult}
    (hruns : ∀ run ∈ allRuns results, run.2.frequency.IsNonzero) : (areaRows results).Nodup := by
  refine (pairwise_lt_areaRows hruns).imp ?_
  rintro row _ hless rfl
  exact Binary64.lt_asymm hless hless

/-- The rows depend on nothing but the relative run-times by application, frequency and mode. Their order is settled
    by the frequencies. -/
theorem areaRows_eq_of_ratiosOf_eq {results others : List AppResult}
    (hresults : ∀ run ∈ allRuns results, run.2.frequency.IsNonzero)
    (hothers : ∀ run ∈ allRuns others, run.2.frequency.IsNonzero)
    (hratios : ∀ exhaustive frequency name, ratiosOf (allRuns results) exhaustive frequency name =
      ratiosOf (allRuns others) exhaustive frequency name) : areaRows results = areaRows others := by
  have hperm : (areaRows results).Perm (areaRows others) := by
    rw [List.perm_ext_iff_of_nodup (nodup_areaRows hresults) (nodup_areaRows hothers)]
    intro row
    constructor
    · exact mem_areaRows_of_ratiosOf_eq hresults hothers hratios
    · exact mem_areaRows_of_ratiosOf_eq hothers hresults fun exhaustive frequency name =>
        (hratios exhaustive frequency name).symm
  -- The order of the rows is strict, so that there is one way to arrange them.
  refine List.Perm.eq_of_pairwise ?_ (pairwise_lt_areaRows hresults) (pairwise_lt_areaRows hothers) hperm
  intro row other _ _ hless hgreater
  exact absurd hgreater (Binary64.lt_asymm hless)

/-- Results with finite intervals have the same rows if, for every application, frequency and mode, they have the same
    relative run-times in file order. So applications of distinct names may change places, the workloads of an
    application may be split over several entries in their order, and runs of different frequencies or modes may
    follow each other in any way. Only the order within a group can be seen, because sums are rounded as they go. -/
theorem areaRows_eq_of_rearranged {results others : List AppResult}
    (hresults : ∀ app ∈ results, ∀ workload ∈ app.workloads, workload.interval.isFinite = true)
    (hothers : ∀ app ∈ others, ∀ workload ∈ app.workloads, workload.interval.isFinite = true) :
    ((∀ exhaustive frequency name, ratiosOf (allRuns results) exhaustive frequency name =
        ratiosOf (allRuns others) exhaustive frequency name) → areaRows results = areaRows others) ∧
      (results.Perm others → (results.map AppResult.name).Nodup → areaRows results = areaRows others) ∧
      ((∀ name, workloadsOf results name = workloadsOf others name) → areaRows results = areaRows others) ∧
      (SameGroups results others → areaRows results = areaRows others) := by
  have hrows := areaRows_eq_of_ratiosOf_eq (isNonzero_frequency_of_finite hresults)
    (isNonzero_frequency_of_finite hothers)
  have hworkloads : (∀ name, workloadsOf results name = workloadsOf others name) →
      areaRows results = areaRows others := by
    intro hsame
    apply hrows
    intro exhaustive frequency name
    rw [ratiosOf_allRuns, ratiosOf_allRuns, hsame]
  exact ⟨hrows, fun hperm hnodup => hworkloads (workloadsOf_eq_of_perm hperm hnodup), hworkloads,
    fun hsame => hrows hsame.ratiosOf_eq⟩

/-- Two applications at one frequency, one of them also at another frequency and in the other mode. -/
def sampleResults : List AppResult :=
  [⟨"a", [⟨33, false, 3, 2⟩, ⟨4, true, 5, 2⟩]⟩, ⟨"b", [⟨33, false, 7, 2⟩]⟩]

/-- The runs of `sampleResults` with the applications in another order, one of them split in two and its runs
    interleaved in another way. -/
def rearrangedResults : List AppResult :=
  [⟨"b", [⟨33, false, 7, 2⟩]⟩, ⟨"a", [⟨4, true, 5, 2⟩]⟩, ⟨"a", [⟨33, false, 3, 2⟩]⟩]

/-- Both arrangements give the same rows. -/
theorem areaRows_rearrangedResults :
    (∀ app ∈ sampleResults, ∀ workload ∈ app.workloads, workload.interval.isFinite = true) ∧
      (∀ app ∈ rearrangedResults, ∀ workload ∈ app.workloads, workload.interval.isFinite = true) ∧
      areaRows sampleResults = areaRows rearrangedResults := by
  have hsample : ∀ app ∈ sampleResults, ∀ workload ∈ app.workloads, workload.interval.isFinite = true := by
    decide +kernel
  have hrearranged : ∀ app ∈ rearrangedResults, ∀ workload ∈ app.workloads, workload.interval.isFinite = true := by
    decide +kernel
  refine ⟨hsample, hrearranged, (areaRows_eq_of_rearranged hsample hrearranged).1 ?_⟩
  intro exhaustive frequency name
  -- The two runs of "a" are of different modes, and "b" has one run only.
  rcases eq_or_ne name "a" with rfl | hname
  · cases exhaustive <;> simp [ratiosOf, allRuns, sampleResults, rearrangedResults, List.filter_cons]
  · simp [ratiosOf, allRuns, sampleResults, rearrangedResults, List.filter_cons, hname.symm]

end ExperimentCharts
