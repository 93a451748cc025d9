import ExperimentCharts.Proofs.Binary64.Exact
import ExperimentCharts.Proofs.Results.Arrangement
import ExperimentCharts.Proofs.Results.BarRows

namespace ExperimentCharts

/-- No other interval is rounded to the frequency of one of the two intervals. -/
theorem BarSlot.interval_eq_of_div_eq (slot : BarSlot) {x : Binary64} (hx : x.isFinite = true)
    (heq : 1000 / x = 1000 / slot.interval) : x = slot.interval := by
  have hthousand : (1000 : Binary64) = .number false ⟨0x408F400000000000, by decide⟩ := by decide +kernel
  unfold interval at heq ⊢
  rw [hthousand] at heq
  revert heq
  split <;> intro heq
  · rw [interval30Hz_eq] at heq ⊢
    exact Binary64.eq_of_div_eq (by decide) (by decide) (by decide) (by decide +kernel) (by decide +kernel) hx heq
  · rw [interval250Hz_eq] at heq ⊢
    exact Binary64.eq_of_div_eq (by decide) (by decide) (by decide) (by decide +kernel) (by decide +kernel) hx heq

/-- So both charts pick the same runs, one by the interval and the other by the frequency. -/
theorem BarSlot.takes_eq_inGroup (slot : BarSlot) {workload : Workload} (hfinite : workload.interval.isFinite = true) :
    slot.takes workload = workload.inGroup slot.exhaustive (1000 / slot.interval) := by
  have hinterval : workload.interval = slot.interval ↔ 1000 / workload.interval = 1000 / slot.interval := by
    constructor
    · intro heq
      rw [heq]
    · exact slot.interval_eq_of_div_eq hfinite
  rw [Bool.eq_iff_iff, slot.takes_iff, hinterval]
  simp [Workload.inGroup]

/-- A slot takes one run at most if no configuration is run twice. -/
theorem length_filter_takes_le_one (slot : BarSlot) {workloads : List Workload}
    (hnodup : (workloads.map fun workload => (workload.exhaustive, workload.interval)).Nodup) :
    (workloads.filter fun workload => slot.takes workload).length ≤ 1 := by
  have hkeys : ((workloads.filter fun workload => slot.takes workload).map fun workload =>
      (workload.exhaustive, workload.interval)) =
        List.replicate (workloads.filter fun workload => slot.takes workload).length
          (slot.exhaustive, slot.interval) := by
    rw [List.eq_replicate_iff]
    refine ⟨by simp, ?_⟩
    intro key hkey
    obtain ⟨workload, hworkload, rfl⟩ := List.mem_map.mp hkey
    obtain ⟨hmode, hinterval⟩ := (slot.takes_iff workload).mp (List.mem_filter.mp hworkload).2
    rw [hmode, hinterval]
  rw [← List.nodup_replicate, ← hkeys]
  exact hnodup.sublist ((List.filter_sublist).map _)

/-- Where a configuration is run once, the row has the relative run-time of that run. -/
theorem BarSlot.toList_value_barRow (slot : BarSlot) {app : AppResult}
    (hnodup : (app.workloads.map fun workload => (workload.exhaustive, workload.interval)).Nodup) :
    (slot.value app.barRow).toList =
      (app.workloads.filter fun workload => slot.takes workload).map Workload.ratio := by
  have hlength := length_filter_takes_le_one slot hnodup
  rw [slot.value_barRow]
  generalize (app.workloads.filter fun workload => slot.takes workload) = taken at *
  match taken, hlength with
  | [], _ => rfl
  | [workload], _ => rfl

/-- The mean of one value is that value: a quotient by one is not rounded. -/
theorem mean_singleton (value : Binary64) : mean [value] = value := by
  change Binary64.sum [value] / 1 = value
  rw [Binary64.sum_singleton, Binary64.div_one]

/-- The applications that were run in a configuration. -/
def BarSlot.apps (slot : BarSlot) (results : List AppResult) : List AppResult :=
  results.filter fun app => (slot.value app.barRow).isSome

/-- The mean of a single run is that run, so that the means are the numbers of the bar chart. -/
theorem BarSlot.map_mean_apps (slot : BarSlot) (results : List AppResult) :
    ((slot.apps results).map fun app => mean (slot.value app.barRow).toList) =
      (barRows results).filterMap slot.value := by
  rw [barRows_eq_map, List.filterMap_map]
  induction results with
  | nil => rfl
  | cons app results ih =>
    rw [apps] at ih ⊢
    cases hvalue : slot.value app.barRow with
    | none => simp [hvalue, ih]
    | some ratio => simp [hvalue, ih, mean_singleton]

section

variable {results : List AppResult} (slot : BarSlot)
  (hnames : (results.map AppResult.name).Nodup)
  (honce : ∀ app ∈ results, (app.workloads.map fun workload => (workload.exhaustive, workload.interval)).Nodup)
  (hfinite : ∀ app ∈ results, ∀ workload ∈ app.workloads, workload.interval.isFinite = true)

include hnames honce hfinite

/-- The area chart collects, for each application, what the row of the application has. -/
theorem ratiosOf_name_eq_toList {app : AppResult} (happ : app ∈ results) :
    ratiosOf (allRuns results) slot.exhaustive (1000 / slot.interval) app.name =
      (slot.value app.barRow).toList := by
  rw [ratiosOf_allRuns, workloadsOf_of_mem hnames happ, slot.toList_value_barRow (honce app happ)]
  congr 1
  apply List.filter_congr
  intro workload hworkload
  exact (slot.takes_eq_inGroup (hfinite app happ workload hworkload)).symm

/-- An application has runs at the frequency of a slot if its row has a number there. -/
theorem ratiosOf_ne_nil_iff_isSome (name : String) :
    ratiosOf (allRuns results) slot.exhaustive (1000 / slot.interval) name ≠ [] ↔
      ∃ app ∈ results, app.name = name ∧ (slot.value app.barRow).isSome = true := by
  constructor
  · intro hratios
    by_cases hname : name ∈ results.map AppResult.name
    · obtain ⟨app, happ, rfl⟩ := List.mem_map.mp hname
      rw [ratiosOf_name_eq_toList slot hnames honce hfinite happ] at hratios
      exact ⟨app, happ, rfl, by simpa [Option.isSome_iff_ne_none] using hratios⟩
    · rw [ratiosOf_allRuns, workloadsOf_eq_nil hname] at hratios
      exact absurd rfl hratios
  · rintro ⟨app, happ, rfl, hsome⟩
    rw [ratiosOf_name_eq_toList slot hnames honce hfinite happ]
    simpa [Option.isSome_iff_ne_none] using hsome

theorem exists_ratiosOf_ne_nil_iff :
    (∃ name, ratiosOf (allRuns results) slot.exhaustive (1000 / slot.interval) name ≠ []) ↔
      ∃ row ∈ barRows results, (slot.value row).isSome = true := by
  constructor
  · rintro ⟨name, hratios⟩
    obtain ⟨app, happ, -, hsome⟩ := (ratiosOf_ne_nil_iff_isSome slot hnames honce hfinite name).mp hratios
    exact ⟨app.barRow, List.mem_map_of_mem happ, hsome⟩
  · rintro ⟨row, hrow, hsome⟩
    obtain ⟨app, happ, rfl⟩ := List.mem_map.mp hrow
    exact ⟨app.name, (ratiosOf_ne_nil_iff_isSome slot hnames honce hfinite app.name).mpr ⟨app, happ, rfl, hsome⟩⟩

/-- The map of the area chart at the frequency of a configuration, in the order of the bar chart's rows. -/
theorem isMapOf_apps :
    IsMapOf (((slot.apps results).map AppResult.name).map fun name =>
        (name, ratiosOf (allRuns results) slot.exhaustive (1000 / slot.interval) name))
      (ratiosOf (allRuns results) slot.exhaustive (1000 / slot.interval)) := by
  apply isMapOf_map_pair (hnames.sublist (List.filter_sublist.map _))
  intro name
  rw [ratiosOf_ne_nil_iff_isSome slot hnames honce hfinite]
  rw [List.mem_map]
  constructor
  · rintro ⟨app, happ, hname⟩
    obtain ⟨happ, hsome⟩ := List.mem_filter.mp happ
    exact ⟨app, happ, hname, hsome⟩
  · rintro ⟨app, happ, hname, hsome⟩
    exact ⟨app, List.mem_filter.mpr ⟨happ, hsome⟩, hname⟩

/-- The summary of a row at the frequency of a configuration is that of the numbers of the bar chart. -/
theorem mode_eq_ofValues?_of_mem_areaRows {row : AreaRow} (hrow : row ∈ areaRows results)
    (hfrequency : row.frequency = 1000 / slot.interval) :
    row.mode slot.exhaustive = Summary.ofValues? ((barRows results).filterMap slot.value) := by
  have hmap := isMapOf_apps slot hnames honce hfinite
  rw [← hfrequency] at hmap
  rw [mode_eq_summarize_of_isMapOf (isNonzero_frequency_of_finite hfinite) hrow hmap, hfrequency,
    summarize_eq_ofValues?, ← slot.map_mean_apps]
  congr 1
  have hvalues : ∀ app ∈ slot.apps results,
      ratiosOf (allRuns results) slot.exhaustive (1000 / slot.interval) app.name =
        (slot.value app.barRow).toList :=
    fun app happ => ratiosOf_name_eq_toList slot hnames honce hfinite (List.mem_filter.mp happ).1
  rw [List.filter_eq_self.mpr]
  · rw [List.map_map, List.map_map]
    apply List.map_congr_left
    intro app happ
    simp [hvalues app happ]
  · intro entry hentry
    rw [List.map_map] at hentry
    obtain ⟨app, happ, rfl⟩ := List.mem_map.mp hentry
    have hsome := (List.mem_filter.mp happ).2
    simpa [hvalues app happ, Option.isSome_iff_ne_none] using hsome

end

/-- The area chart's data and the bar chart's agree on one frequency: there is a row of it if there is a number
    of it, and in each mode the row has the least, the median and the greatest of the numbers, if there are any. -/
structure AgreeAt (results : List AppResult) (frequency : Binary64) (selective exhaustive : BarRow → Option Binary64) :
    Prop where
  exists_row_iff : (∃ row ∈ areaRows results, row.frequency = frequency) ↔
    ∃ row ∈ barRows results, (selective row).isSome = true ∨ (exhaustive row).isSome = true
  selective_eq : ∀ row ∈ areaRows results, row.frequency = frequency →
    row.selective = Summary.ofValues? ((barRows results).filterMap selective)
  exhaustive_eq : ∀ row ∈ areaRows results, row.frequency = frequency →
    row.exhaustive = Summary.ofValues? ((barRows results).filterMap exhaustive)
  selective_eq_none_iff : ∀ row ∈ areaRows results, row.frequency = frequency →
    (row.selective = none ↔ ∀ bar ∈ barRows results, selective bar = none)
  exhaustive_eq_none_iff : ∀ row ∈ areaRows results, row.frequency = frequency →
    (row.exhaustive = none ↔ ∀ bar ∈ barRows results, exhaustive bar = none)

/-- Only no values have no summary. -/
theorem Summary.ofValues?_eq_none_iff (values : List Binary64) : ofValues? values = none ↔ values = [] := by
  constructor
  · intro hnone
    by_contra hvalues
    have hsorted : Binary64.sorted values ≠ [] := by
      rw [← List.length_pos_iff, Binary64.sorted, List.length_mergeSort]
      exact List.length_pos_iff.mpr hvalues
    obtain ⟨med, hmed⟩ := exists_median hsorted
    rw [ofValues?, List.head?_eq_some_head hsorted, hmed, List.getLast?_eq_some_getLast hsorted] at hnone
    cases hnone
  · rintro rfl
    rw [ofValues?, Binary64.sorted, List.mergeSort_nil]
    rfl

/-- Both charts agree at the frequency of either interval. -/
theorem agreeAt_interval (is30Hz : Bool) {results : List AppResult} (hnames : (results.map AppResult.name).Nodup)
    (honce : ∀ app ∈ results, (app.workloads.map fun workload => (workload.exhaustive, workload.interval)).Nodup)
    (hfinite : ∀ app ∈ results, ∀ workload ∈ app.workloads, workload.interval.isFinite = true) :
    AgreeAt results (1000 / (BarSlot.mk is30Hz false).interval) (BarSlot.mk is30Hz false).value
      (BarSlot.mk is30Hz true).value := by
  have hselective {row : AreaRow} (hrow : row ∈ areaRows results) :=
    mode_eq_ofValues?_of_mem_areaRows ⟨is30Hz, false⟩ hnames honce hfinite hrow
  have hexhaustive {row : AreaRow} (hrow : row ∈ areaRows results) :=
    mode_eq_ofValues?_of_mem_areaRows ⟨is30Hz, true⟩ hnames honce hfinite hrow
  have hnone (slot : BarSlot) : Summary.ofValues? ((barRows results).filterMap slot.value) = none ↔
      ∀ bar ∈ barRows results, slot.value bar = none := by
    rw [Summary.ofValues?_eq_none_iff, List.filterMap_eq_nil_iff]
  refine ⟨?_, fun row hrow => hselective hrow, fun row hrow => hexhaustive hrow, ?_, ?_⟩
  · rw [exists_mem_areaRows_iff (isNonzero_frequency_of_finite hfinite), exists_frequency_iff]
    have hslot (exhaustive : Bool) := exists_ratiosOf_ne_nil_iff ⟨is30Hz, exhaustive⟩ hnames honce hfinite
    rw [Bool.exists_bool]
    refine (or_congr (hslot false) (hslot true)).trans ?_
    simp only [← exists_or, ← and_or_left]
  · intro row hrow hfrequency
    rw [← hnone, ← hselective hrow hfrequency]
    rfl
  · intro row hrow hfrequency
    rw [← hnone, ← hexhaustive hrow hfrequency]
    rfl

/-- Loaded results in which no application has two entries, nor two runs of one mode and interval, give rows for both
    charts that agree at 1000 / 33 and at 250 inputs per second. The area chart knows a run by the rounded quotient of
    its interval, so that no other interval may have the same one, and it averages the runs of an application, of
    which there may be only one. -/
theorem areaRows_agree_barRows {bytes : List UInt8} {results : List AppResult}
    (hread : Results.read bytes = .ok results) (hnames : (results.map AppResult.name).Nodup)
    (honce : ∀ app ∈ results, (app.workloads.map fun workload => (workload.exhaustive, workload.interval)).Nodup) :
    AgreeAt results (1000 / 33) BarRow.selective30 BarRow.exhaustive30 ∧
      AgreeAt results 250 BarRow.selective250 BarRow.exhaustive250 := by
  have hfinite : ∀ app ∈ results, ∀ workload ∈ app.workloads, workload.interval.isFinite = true :=
    fun app happ workload hworkload => Results.isFinite_interval_of_read hread happ hworkload
  have h250Hz : 1000 / interval250Hz = 250 := by decide +kernel
  refine ⟨agreeAt_interval true hnames honce hfinite, ?_⟩
  rw [← h250Hz]
  exact agreeAt_interval false hnames honce hfinite

/-- A file that holds `sampleResults`, with its records written as lists of their fields. -/
def sampleFile : List UInt8 := Text.encode
  "[[\"a\",[[33,false,3,2],[4,true,5,2]]],[\"b\",[[33,false,7,2]]]]"

/-- Both charts show 1.5 and 3.5 at the lower frequency, one as bars and the other as the ends of its area, and 2.5
    alone at the higher one. -/
theorem sampleResults_agree :
    Results.read sampleFile = .ok sampleResults ∧
      (barRows sampleResults).filterMap BarRow.selective30 = [1.5, 3.5] ∧
      (barRows sampleResults).filterMap BarRow.exhaustive250 = [2.5] ∧
      (∃ row ∈ areaRows sampleResults, row.frequency = 1000 / 33 ∧ row.selective = some ⟨1.5, 2.5, 3.5⟩ ∧
        row.exhaustive = none) ∧
      ∃ row ∈ areaRows sampleResults, row.frequency = 250 ∧ row.selective = none ∧
        row.exhaustive = some ⟨2.5, 2.5, 2.5⟩ := by
  have hread : Results.read sampleFile = .ok sampleResults := eq_ok_of_toOption (by decide +kernel)
  have h30Hz : (barRows sampleResults).filterMap BarRow.selective30 = [1.5, 3.5] := by decide +kernel
  have h250Hz : (barRows sampleResults).filterMap BarRow.exhaustive250 = [2.5] := by decide +kernel
  obtain ⟨hlow, hhigh⟩ := areaRows_agree_barRows hread (by decide) (by decide +kernel)
  obtain ⟨row, hrow, hfrequency⟩ := hlow.exists_row_iff.mpr (by decide +kernel)
  obtain ⟨row', hrow', hfrequency'⟩ := hhigh.exists_row_iff.mpr (by decide +kernel)
  refine ⟨hread, h30Hz, h250Hz, ⟨row, hrow, hfrequency, ?_, ?_⟩, ⟨row', hrow', hfrequency', ?_, ?_⟩⟩
  · rw [hlow.selective_eq row hrow hfrequency, h30Hz]
    exact Summary.ofValues?_of_ascending [1.5, 3.5] (.refl _) (by decide +kernel) rfl (by decide +kernel) rfl
  · exact (hlow.exhaustive_eq_none_iff row hrow hfrequency).mpr (by decide +kernel)
  · exact (hhigh.selective_eq_none_iff row' hrow' hfrequency').mpr (by decide +kernel)
  · rw [hhigh.exhaustive_eq row' hrow' hfrequency', h250Hz]
    exact Summary.ofValues?_of_ascending [2.5] (.refl _) (by decide +kernel) rfl (by decide +kernel) rfl

end ExperimentCharts
