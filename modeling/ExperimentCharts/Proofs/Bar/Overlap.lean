import ExperimentCharts.Proofs.Bar.Columns
import Mathlib.Algebra.Order.Ring.Rat
import Mathlib.Data.Set.Lattice
import Mathlib.Order.CompletePartialOrder
import Mathlib.Order.Interval.Set.Defs
import Mathlib.Tactic.Linarith
import Mathlib.Tactic.NormNum

namespace ExperimentCharts.BarData

/-- The exact middle of the bar of an experiment, by the decimals of the width of a bar and of the gap. -/
def barMiddle (application experiment : Nat) : ℚ := application + barOffset (0.15 : ℚ) 0.05 experiment

/-- The x coordinates strictly between the edges of a bar. -/
def barInterior (application experiment : Nat) : Set ℚ :=
  Set.Ioo (barMiddle application experiment - 0.15 / 2) (barMiddle application experiment + 0.15 / 2)

/-- The chart shows a bar for this experiment of this application. -/
def HasBar (data : BarData) (layout : BarLayout) (application experiment : Nat) : Prop :=
  ∃ bars, (data.bars layout)[experiment]? = some bars ∧ application < bars.length

/-- No bar of the chart hides a part of another. -/
def BarsApart (data : BarData) (layout : BarLayout) : Prop :=
  ∀ application experiment other otherExperiment, data.HasBar layout application experiment →
    data.HasBar layout other otherExperiment → (application, experiment) ≠ (other, otherExperiment) →
    Disjoint (barInterior application experiment) (barInterior other otherExperiment)

/-- A bar's width for each experiment before, and a gap after every second one. -/
theorem barOffset_eq (experiment : Nat) :
    barOffset (0.15 : ℚ) 0.05 experiment = 0.15 * experiment + 0.05 * ((experiment + 1) / 2 : Nat) := by
  rw [barOffset, mul_comm (experiment : ℚ)]

/-- A later experiment stands a bar's width to the right at least. -/
theorem barOffset_add_width_le {experiment other : Nat} (hless : experiment < other) :
    barOffset (0.15 : ℚ) 0.05 experiment + 0.15 ≤ barOffset 0.15 0.05 other := by
  have hgaps : ((experiment + 1) / 2 : Nat) ≤ ((other + 1) / 2 : Nat) := by omega
  have hgaps' : (((experiment + 1) / 2 : Nat) : ℚ) ≤ ((other + 1) / 2 : Nat) := by exact_mod_cast hgaps
  have hbars : (experiment : ℚ) + 1 ≤ other := by exact_mod_cast hless
  rw [barOffset_eq, barOffset_eq]
  linarith

theorem barOffset_nonneg (experiment : Nat) : 0 ≤ barOffset (0.15 : ℚ) 0.05 experiment := by
  rw [barOffset_eq]
  positivity

/-- Five bars fit between two applications, which stand one apart. -/
theorem barOffset_le_of_lt_five {experiment : Nat} (hfew : experiment < 5) :
    barOffset (0.15 : ℚ) 0.05 experiment ≤ 0.7 := by
  have hlast : barOffset (0.15 : ℚ) 0.05 4 = 0.7 := by norm_num [barOffset]
  rcases Nat.lt_or_eq_of_le (Nat.le_of_lt_succ hfew) with hless | rfl
  · linarith [barOffset_add_width_le hless]
  · exact hlast.le

/-- Bars whose middles are a width apart do not overlap. -/
theorem disjoint_of_middle_le {application experiment other otherExperiment : Nat}
    (hle : barMiddle application experiment + 0.15 ≤ barMiddle other otherExperiment) :
    Disjoint (barInterior application experiment) (barInterior other otherExperiment) := by
  rw [Set.disjoint_left]
  intro x hleft hright
  have hbefore := hleft.2
  have hafter := hright.1
  linarith

/-- The bars of one application are apart, whatever their number. -/
theorem disjoint_of_experiment_ne (application : Nat) {experiment other : Nat} (hne : experiment ≠ other) :
    Disjoint (barInterior application experiment) (barInterior application other) := by
  rcases Nat.lt_or_gt_of_ne hne with hless | hmore
  · apply disjoint_of_middle_le
    rw [barMiddle, barMiddle]
    linarith [barOffset_add_width_le hless]
  · apply Disjoint.symm
    apply disjoint_of_middle_le
    rw [barMiddle, barMiddle]
    linarith [barOffset_add_width_le hmore]

/-- Five bars of an application end before the next application begins. -/
theorem disjoint_of_application_lt {application other experiment : Nat} (otherExperiment : Nat)
    (hless : application < other) (hfew : experiment < 5) :
    Disjoint (barInterior application experiment) (barInterior other otherExperiment) := by
  have hnext : (application : ℚ) + 1 ≤ other := by exact_mod_cast hless
  apply disjoint_of_middle_le
  rw [barMiddle, barMiddle]
  linarith [barOffset_le_of_lt_five hfew, barOffset_nonneg otherExperiment]

/-- The sixth bar of an application overlaps the first bar of the next one. -/
theorem not_disjoint_sixth_first : ¬ Disjoint (barInterior 0 5) (barInterior 1 0) := by
  rw [Set.not_disjoint_iff]
  refine ⟨0.95, ?_, ?_⟩ <;> constructor <;> norm_num [barMiddle, barOffset]

variable {table : Table} {columns : Nat} {data : BarData}

/-- Each experiment has as many values as there are applications, which is the number of rows. -/
theorem length_values (hdata : ofTable table columns = .ok data) {experiment : Nat} {series : Series}
    (hseries : data.experiments[experiment]? = some series) :
    series.values.length = data.applications.length := by
  obtain ⟨htexts, -, hcolumns⟩ := ofTable_eq_ok_iff.mp hdata
  obtain ⟨hinside, rfl⟩ := List.getElem?_eq_some_iff.mp hseries
  have hcolumn := hcolumns.get (hcolumns.length_eq ▸ hinside) hinside
  rw [Table.length_of_textColumn htexts]
  exact Table.length_values_of_column hcolumn

theorem length_offsets (columns : Nat) (width gap : Binary64) :
    (BarLayout.ofColumns columns width gap).offsets.length = columns := by
  simp [BarLayout.ofColumns]

/-- The chart of a table has a bar for each experiment of each application. -/
theorem hasBar_iff (hdata : ofTable table columns = .ok data) (application experiment : Nat) :
    data.HasBar (.ofColumns columns barWidth groupGap) application experiment ↔
      application < data.applications.length ∧ experiment < columns := by
  have hexperiments := length_experiments hdata
  have hoffsets := length_offsets columns barWidth groupGap
  unfold HasBar bars
  generalize BarLayout.ofColumns columns barWidth groupGap = layout at *
  by_cases hinside : experiment < columns
  · have hseries := List.getElem?_eq_getElem (hexperiments.symm ▸ hinside)
    have hoffset := List.getElem?_eq_getElem (hoffsets.symm ▸ hinside)
    simp [List.getElem?_zip_eq_some, hseries, hoffset, barsOf, length_values hdata hseries, hinside]
  · have hzip : (data.experiments.zip layout.offsets)[experiment]? = none := by
      simp [hexperiments, hoffsets]
      omega
    simp [hzip, hinside]

/-- Up to five experiments leave room for the next application. -/
theorem barsApart_of_le_five (hdata : ofTable table columns = .ok data) (hfew : columns ≤ 5) :
    data.BarsApart (.ofColumns columns barWidth groupGap) := by
  intro application experiment other otherExperiment hbar hother hne
  rw [hasBar_iff hdata] at hbar hother
  rcases Nat.lt_trichotomy application other with hless | rfl | hmore
  · exact disjoint_of_application_lt otherExperiment hless (by omega)
  · exact disjoint_of_experiment_ne application fun heq => hne (by rw [heq])
  · exact (disjoint_of_application_lt experiment hmore (by omega)).symm

/-- A single application may have any number of experiments. -/
theorem barsApart_of_single (hdata : ofTable table columns = .ok data)
    (hsingle : data.applications.length ≤ 1) : data.BarsApart (.ofColumns columns barWidth groupGap) := by
  intro application experiment other otherExperiment hbar hother hne
  rw [hasBar_iff hdata] at hbar hother
  obtain rfl : application = other := by omega
  exact disjoint_of_experiment_ne application fun heq => hne (by rw [heq])

/-- The chart of a table has a bar for each experiment of each application. The bars of one application are
    apart. All bars are apart exactly if there are at most five experiments or there is at most one
    application: otherwise the sixth bar of the first application hides a part of the first bar of the
    second. -/
theorem barsApart_iff (hdata : ofTable table columns = .ok data) :
    (∀ application experiment, data.HasBar (.ofColumns columns barWidth groupGap) application experiment ↔
        application < data.applications.length ∧ experiment < columns) ∧
      (∀ application experiment other, experiment ≠ other →
        Disjoint (barInterior application experiment) (barInterior application other)) ∧
      (data.BarsApart (.ofColumns columns barWidth groupGap) ↔
        columns ≤ 5 ∨ data.applications.length ≤ 1) := by
  refine ⟨hasBar_iff hdata, fun application _ _ hne => disjoint_of_experiment_ne application hne, ?_, ?_⟩
  · intro hapart
    by_contra hnot
    have hsixth := (hasBar_iff hdata 0 5).mpr (by omega)
    have hfirst := (hasBar_iff hdata 1 0).mpr (by omega)
    exact not_disjoint_sixth_first (hapart 0 5 1 0 hsixth hfirst (by simp))
  · rintro (hfew | hsingle)
    · exact barsApart_of_le_five hdata hfew
    · exact barsApart_of_single hdata hsingle

/-- Two applications with the same run-time in every experiment. -/
def evenTable (names : List String) : Table :=
  ⟨applicationColumn :: names, ["x", "y"].map fun application => application :: names.map fun _ => "1"⟩

@[inherit_doc evenTable]
def evenData (names : List String) : BarData := ⟨["x", "y"], names.map fun name => ⟨name, [1, 1]⟩⟩

/-- Each experiment has a one for both applications. -/
theorem numbersAt_evenTable {names : List String} (hnames : applicationColumn ∉ names) {name : String}
    (hname : name ∈ names) :
    (evenTable names).numbersAt ((evenTable names).headers.idxOf name) = [some 1, some 1] := by
  have hone : Table.finite? "1" = some 1 := by decide +kernel
  have hne : applicationColumn ≠ name := fun heq => hnames (heq ▸ hname)
  have hplace : names.idxOf name < names.length := List.idxOf_lt_length_of_mem hname
  simp [Table.numbersAt, evenTable, List.idxOf_cons_ne _ hne, hplace, hone]

/-- The chart of such a table has all of its experiments. -/
theorem ofTable_evenTable (names : List String) (hnames : applicationColumn ∉ names) :
    ofTable (evenTable names) names.length = .ok (evenData names) := by
  have hcolumns : (evenTable names).experimentColumns = names := by
    have hothers : ∀ name ∈ names, (name != applicationColumn) = true := by
      intro name hname
      simpa using fun heq : name = applicationColumn => hnames (heq ▸ hname)
    simp [Table.experimentColumns, evenTable, List.filter_eq_self.mpr hothers]
  refine ofTable_eq_ok_iff.mpr ⟨rfl, by simp [hcolumns], ?_⟩
  rw [hcolumns, List.take_length, evenData, List.forall₂_map_right_iff, List.forall₂_same]
  intro name hname
  exact Table.column_eq_ok_iff.mpr ⟨List.mem_cons_of_mem _ hname, rfl, numbersAt_evenTable hnames hname⟩

/-- Six experiments are more than fit: two bars of different applications overlap. -/
theorem evenTable_six_overlap :
    Table.ofCsv (Text.encode "Application,A,B,C,D,E,F\nx,1,1,1,1,1,1\ny,1,1,1,1,1,1\n") =
        .ok (evenTable ["A", "B", "C", "D", "E", "F"]) ∧
      ofTable (evenTable ["A", "B", "C", "D", "E", "F"]) 6 = .ok (evenData ["A", "B", "C", "D", "E", "F"]) ∧
      (evenData ["A", "B", "C", "D", "E", "F"]).HasBar (.ofColumns 6 barWidth groupGap) 0 5 ∧
      (evenData ["A", "B", "C", "D", "E", "F"]).HasBar (.ofColumns 6 barWidth groupGap) 1 0 ∧
      ¬ Disjoint (barInterior 0 5) (barInterior 1 0) := by
  have hdata := ofTable_evenTable ["A", "B", "C", "D", "E", "F"] (by decide)
  exact ⟨by rfl, hdata, (hasBar_iff hdata 0 5).mpr (by decide), (hasBar_iff hdata 1 0).mpr (by decide),
    not_disjoint_sixth_first⟩

theorem evenTable_five_apart :
    ofTable (evenTable ["A", "B", "C", "D", "E"]) 5 = .ok (evenData ["A", "B", "C", "D", "E"]) ∧
      (evenData ["A", "B", "C", "D", "E"]).BarsApart (.ofColumns 5 barWidth groupGap) := by
  have hdata := ofTable_evenTable ["A", "B", "C", "D", "E"] (by decide)
  exact ⟨hdata, (barsApart_iff hdata).2.2.mpr (.inl le_rfl)⟩

end ExperimentCharts.BarData
