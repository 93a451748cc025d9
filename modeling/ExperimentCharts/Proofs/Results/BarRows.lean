import ExperimentCharts.Proofs.Binary64.Arithmetic
import ExperimentCharts.Results.Rows
import Mathlib.Data.List.Forall2
import Mathlib.Logic.Relation

namespace ExperimentCharts

/-- A configuration of the bar chart: one of its two intervals in one of the two modes. -/
structure BarSlot where
  is30Hz : Bool
  exhaustive : Bool

theorem interval30Hz_eq : interval30Hz = .number false ⟨0x4040800000000000, by decide⟩ := by decide +kernel

theorem interval250Hz_eq : interval250Hz = .number false ⟨0x4010000000000000, by decide⟩ := by decide +kernel

namespace BarSlot

def interval (slot : BarSlot) : Binary64 := if slot.is30Hz then interval30Hz else interval250Hz

/-- What a row has of a configuration. -/
def value (slot : BarSlot) (row : BarRow) : Option Binary64 :=
  match slot.is30Hz, slot.exhaustive with
  | true, false => row.selective30
  | true, true => row.exhaustive30
  | false, false => row.selective250
  | false, true => row.exhaustive250

/-- Whether a run is one of the configuration. -/
def takes (slot : BarSlot) (workload : Workload) : Bool :=
  workload.exhaustive = slot.exhaustive ∧ workload.interval.equal slot.interval = true

/-- Neither interval is zero, so that a run is known by comparing numbers. -/
theorem isNonzero_interval (slot : BarSlot) : slot.interval.IsNonzero := by
  unfold interval
  split
  · exact ⟨_, _, interval30Hz_eq, by decide⟩
  · exact ⟨_, _, interval250Hz_eq, by decide⟩

theorem takes_iff (slot : BarSlot) (workload : Workload) :
    slot.takes workload = true ↔ workload.exhaustive = slot.exhaustive ∧ workload.interval = slot.interval := by
  simp [takes, Binary64.equal_iff_eq slot.isNonzero_interval]

/-- One more run changes the slot of its configuration and no other. -/
theorem value_add (slot : BarSlot) (row : BarRow) (workload : Workload) :
    slot.value (row.add workload) = if slot.takes workload then some workload.ratio else slot.value row := by
  by_cases h30 : workload.interval.equal interval30Hz = true
  · have h250 : ¬ workload.interval.equal interval250Hz = true := by
      intro h250
      have hone := (Binary64.equal_iff_eq (mk true true).isNonzero_interval).mp h30
      have hother := (Binary64.equal_iff_eq (mk false true).isNonzero_interval).mp h250
      exact absurd (hone.symm.trans hother) (by decide +kernel)
    obtain ⟨_ | _, _ | _⟩ := slot <;> cases hmode : workload.exhaustive <;>
      simp [BarRow.add, takes, interval, value, h30, h250, hmode]
  · by_cases h250 : workload.interval.equal interval250Hz = true <;>
      obtain ⟨_ | _, _ | _⟩ := slot <;> cases hmode : workload.exhaustive <;>
      simp [BarRow.add, takes, interval, value, h30, h250, hmode]

/-- A slot keeps the last of the runs of its configuration. -/
theorem value_foldl_add (slot : BarSlot) (workloads : List Workload) (row : BarRow) :
    slot.value (workloads.foldl BarRow.add row) =
      (((workloads.filter fun workload => slot.takes workload).map Workload.ratio).getLast?).or (slot.value row) := by
  induction workloads generalizing row with
  | nil => rfl
  | cons workload workloads ih =>
    rw [List.foldl_cons, ih, slot.value_add]
    by_cases htakes : slot.takes workload = true
    · rw [if_pos htakes, List.filter_cons_of_pos htakes, List.map_cons, List.getLast?_cons]
      cases ((workloads.filter fun workload => slot.takes workload).map Workload.ratio).getLast? <;> rfl
    · rw [if_neg htakes, List.filter_cons_of_neg htakes]

end BarSlot

/-- The row of an application. -/
def AppResult.barRow (app : AppResult) : BarRow :=
  app.workloads.foldl BarRow.add ⟨app.name, none, none, none, none⟩

theorem barRows_eq_map (results : List AppResult) : barRows results = results.map AppResult.barRow := rfl

namespace BarSlot

/-- Runs do not change the name of a row. -/
theorem application_foldl_add (workloads : List Workload) (row : BarRow) :
    (workloads.foldl BarRow.add row).application = row.application := by
  induction workloads generalizing row with
  | nil => rfl
  | cons workload workloads ih =>
    rw [List.foldl_cons, ih]
    unfold BarRow.add
    split <;> [skip; split] <;> [split; split; skip] <;> rfl

theorem value_barRow (slot : BarSlot) (app : AppResult) :
    slot.value app.barRow =
      ((app.workloads.filter fun workload => slot.takes workload).getLast?).map Workload.ratio := by
  have hempty : slot.value ⟨app.name, none, none, none, none⟩ = none := by
    obtain ⟨_ | _, _ | _⟩ := slot <;> rfl
  rw [AppResult.barRow, slot.value_foldl_add, hempty, Option.or_none, List.getLast?_map]

/-- A run that a slot takes, and after which it takes no other. -/
def IsLast (slot : BarSlot) (workloads : List Workload) (workload : Workload) : Prop :=
  ∃ before after, workloads = before ++ workload :: after ∧ slot.takes workload = true ∧
    ∀ later ∈ after, slot.takes later = false

/-- The last of the runs that a slot takes is one that no other follows. -/
theorem getLast?_filter_takes_iff (slot : BarSlot) {workloads : List Workload} {workload : Workload} :
    (workloads.filter fun workload => slot.takes workload).getLast? = some workload ↔
      slot.IsLast workloads workload := by
  rw [List.getLast?_filter, List.find?_eq_some_iff_append, IsLast]
  constructor
  · rintro ⟨htakes, after, before, hreverse, hlater⟩
    refine ⟨before.reverse, after.reverse, ?_, htakes, by simpa using hlater⟩
    rw [← List.reverse_reverse workloads, hreverse]
    simp
  · rintro ⟨before, after, rfl, htakes, hlater⟩
    exact ⟨htakes, after.reverse, before.reverse, by simp, by simpa using hlater⟩

/-- What a slot holds for some runs: the relative run-time of the last one it takes, and nothing if it takes
    none. -/
structure HoldsLast (slot : BarSlot) (workloads : List Workload) (row : BarRow) : Prop where
  eq_some_iff : ∀ ratio, slot.value row = some ratio ↔
    ∃ workload, slot.IsLast workloads workload ∧ workload.tracked / workload.untracked = ratio
  eq_none_iff : slot.value row = none ↔ ∀ workload ∈ workloads, slot.takes workload = false

/-- Each slot of a row holds the last run of its configuration. -/
theorem holdsLast_barRow (slot : BarSlot) (app : AppResult) : slot.HoldsLast app.workloads app.barRow := by
  constructor
  · intro ratio
    rw [value_barRow, Option.map_eq_some_iff]
    simp only [getLast?_filter_takes_iff, Workload.ratio]
  · rw [value_barRow, Option.map_eq_none_iff, List.getLast?_eq_none_iff, List.filter_eq_nil_iff]
    simp

end BarSlot

/-- A row is known by its application and its four slots. -/
theorem BarRow.ext_slots {row other : BarRow} (hname : row.application = other.application)
    (hslots : ∀ slot : BarSlot, slot.value row = slot.value other) : row = other := by
  have h30 := hslots ⟨true, false⟩
  have h250 := hslots ⟨false, false⟩
  have h30' := hslots ⟨true, true⟩
  have h250' := hslots ⟨false, true⟩
  cases row
  cases other
  simp_all [BarSlot.value]

/-- Entries of one name whose slots take the same runs have the same row. -/
theorem AppResult.barRow_eq_of_filter_eq {app other : AppResult} (hname : app.name = other.name)
    (hruns : ∀ slot : BarSlot, (app.workloads.filter fun workload => slot.takes workload) =
      other.workloads.filter fun workload => slot.takes workload) : app.barRow = other.barRow := by
  apply BarRow.ext_slots
  · rw [barRow, barRow, BarSlot.application_foldl_add, BarSlot.application_foldl_add, hname]
  · intro slot
    rw [slot.value_barRow, slot.value_barRow, hruns slot]

/-- A run at one of the two intervals of the bar chart. -/
def Workload.isShown (workload : Workload) : Bool :=
  workload.interval.equal interval30Hz || workload.interval.equal interval250Hz

/-- Runs that go to a slot are shown. -/
theorem BarSlot.isShown_of_takes (slot : BarSlot) {workload : Workload} (htakes : slot.takes workload = true) :
    workload.isShown = true := by
  rw [takes, decide_eq_true_eq, interval] at htakes
  rw [Workload.isShown, Bool.or_eq_true]
  split at htakes
  · exact .inl htakes.2
  · exact .inr htakes.2

/-- The entry without its runs at other intervals. -/
def AppResult.onlyShown (app : AppResult) : AppResult := { app with workloads := app.workloads.filter Workload.isShown }

/-- Runs at other intervals cannot be seen. -/
theorem AppResult.barRow_onlyShown (app : AppResult) : app.onlyShown.barRow = app.barRow := by
  have hname : app.onlyShown.name = app.name := rfl
  apply barRow_eq_of_filter_eq hname
  intro slot
  rw [onlyShown, List.filter_filter]
  apply List.filter_congr
  intro workload _
  cases htakes : slot.takes workload with
  | false => rfl
  | true => exact slot.isShown_of_takes htakes

/-- Two runs of one mode and one interval. -/
def Workload.SameConfiguration (workload other : Workload) : Prop :=
  workload.exhaustive = other.exhaustive ∧ workload.interval.equal other.interval = true

/-- Two neighbouring runs of different configurations change places. -/
inductive NeighboursSwapped : List Workload → List Workload → Prop where
  | swap (before after : List Workload) {first second : Workload} (hother : ¬ first.SameConfiguration second) :
    NeighboursSwapped (before ++ first :: second :: after) (before ++ second :: first :: after)

/-- Runs of one slot have the same configuration. -/
theorem BarSlot.sameConfiguration_of_takes (slot : BarSlot) {workload other : Workload}
    (htakes : slot.takes workload = true) (hother : slot.takes other = true) : workload.SameConfiguration other := by
  have hequal := of_decide_eq_true htakes
  rw [slot.takes_iff] at htakes hother
  rw [Workload.SameConfiguration, hother.1, hother.2]
  exact hequal

/-- Two runs that change places go to different slots, so that each slot takes the same runs in the same order. -/
theorem BarSlot.filter_takes_of_swapped (slot : BarSlot) {workloads others : List Workload}
    (hswapped : NeighboursSwapped workloads others) :
    (workloads.filter fun workload => slot.takes workload) = others.filter fun workload => slot.takes workload := by
  obtain ⟨before, after, hdifferent⟩ := hswapped
  rename_i first second
  rw [List.filter_append, List.filter_append]
  congr 1
  -- The slot takes at most one of the two.
  cases hfirst : slot.takes first with
  | false => simp [hfirst, List.filter_cons]
  | true =>
    cases hsecond : slot.takes second with
    | false => simp [hfirst, hsecond]
    | true => exact absurd (slot.sameConfiguration_of_takes hfirst hsecond) hdifferent

/-- Any number of such changes. -/
def Reordered : List Workload → List Workload → Prop := Relation.ReflTransGen NeighboursSwapped

/-- The same after any number of such swaps. -/
theorem BarSlot.filter_takes_of_reordered (slot : BarSlot) {workloads others : List Workload}
    (hreordered : Reordered workloads others) :
    (workloads.filter fun workload => slot.takes workload) = others.filter fun workload => slot.takes workload := by
  induction hreordered with
  | refl => rfl
  | tail _ hswapped ih => rw [ih, slot.filter_takes_of_swapped hswapped]

/-- There is one row for each entry, in order and of its name, so that entries of one name stay apart. Each slot of
    a row holds the relative run-time of the last run of its configuration in that entry. The rows stay the same
    without the runs at other intervals, and if runs of different configurations change places within entries. -/
theorem barRows_hold_last (results : List AppResult) :
    List.Forall₂ (fun app row => row.application = app.name ∧
        ∀ slot : BarSlot, slot.HoldsLast app.workloads row) results (barRows results) ∧
      barRows (results.map AppResult.onlyShown) = barRows results ∧
      ∀ others, List.Forall₂ (fun app other => app.name = other.name ∧ Reordered app.workloads other.workloads)
        results others → barRows others = barRows results := by
  rw [barRows_eq_map]
  refine ⟨?_, ?_, ?_⟩
  · rw [List.forall₂_map_right_iff, List.forall₂_same]
    intro app _
    exact ⟨BarSlot.application_foldl_add _ _, fun slot => slot.holdsLast_barRow app⟩
  · rw [barRows_eq_map, List.map_map]
    exact List.map_congr_left fun app _ => app.barRow_onlyShown
  · intro others hothers
    rw [barRows_eq_map, eq_comm, ← List.forall₂_eq_eq_eq, List.forall₂_map_left_iff, List.forall₂_map_right_iff]
    apply hothers.imp
    rintro app other ⟨hname, hreordered⟩
    exact AppResult.barRow_eq_of_filter_eq hname fun slot => slot.filter_takes_of_reordered hreordered

/-- Two entries of one name; the first has two runs of one configuration and a run at another interval. -/
def repeatedRuns : List AppResult :=
  [⟨"file", [⟨33, false, 110, 100⟩, ⟨33, false, 130, 100⟩, ⟨7, true, 200, 100⟩, ⟨4, true, 300, 100⟩]⟩,
   ⟨"file", [⟨4, false, 150, 100⟩]⟩]

/-- The same runs after two swaps. -/
def swappedRuns : List AppResult :=
  [⟨"file", [⟨33, false, 110, 100⟩, ⟨4, true, 300, 100⟩, ⟨33, false, 130, 100⟩, ⟨7, true, 200, 100⟩]⟩,
   ⟨"file", [⟨4, false, 150, 100⟩]⟩]

/-- The last of three runs counts in its slot, and entries of the same name keep rows of their own. -/
theorem barRows_swappedRuns :
    barRows repeatedRuns =
        [⟨"file", some 1.3, none, none, some 3⟩, ⟨"file", none, some 1.5, none, none⟩] ∧
      barRows swappedRuns = barRows repeatedRuns := by
  refine ⟨by decide +kernel, (barRows_hold_last repeatedRuns).2.2 swappedRuns ?_⟩
  refine .cons ⟨rfl, ?_⟩ (.cons ⟨rfl, .refl⟩ .nil)
  refine .tail (.tail .refl (.swap [⟨33, false, 110, 100⟩, ⟨33, false, 130, 100⟩] [] ?_))
    (.swap [⟨33, false, 110, 100⟩] [⟨7, true, 200, 100⟩] ?_)
  · exact fun hsame => absurd hsame.2 (by decide +kernel)
  · exact fun hsame => absurd hsame.1 (by decide)

end ExperimentCharts
