import ExperimentCharts.Bar.Data
import ExperimentCharts.Proofs.Table.Columns
import Mathlib.Data.List.Nodup

namespace ExperimentCharts

namespace Table

/-- The names of the experiments, each with its own place in the header. -/
def experimentHeaders (table : Table) : List (String × Nat) :=
  table.headers.zipIdx.filter fun header => header.1 != applicationColumn

/-- The own places of the first `columns` experiments. -/
def ownPlaces (table : Table) (columns : Nat) : List Nat :=
  (table.experimentHeaders.take columns).map Prod.snd

/-- The first places with the names of the first `columns` experiments. -/
def firstPlaces (table : Table) (columns : Nat) : List Nat :=
  (table.experimentColumns.take columns).map fun name => table.headers.idxOf name

variable {table : Table} {columns : Nat}

/-- Without their places they are the names of the experiments. -/
theorem map_fst_experimentHeaders (table : Table) :
    table.experimentHeaders.map Prod.fst = table.experimentColumns := by
  have hnames : table.headers.zipIdx.map Prod.fst = table.headers := List.zipIdx_map_fst 0 _
  rw [experimentColumns, ← hnames, List.filter_map]
  rfl

/-- An experiment has any place of the header but those with the name of the applications. -/
theorem mem_experimentHeaders_iff {header : String × Nat} :
    header ∈ table.experimentHeaders ↔
      table.headers[header.2]? = some header.1 ∧ header.1 ≠ applicationColumn := by
  simp [experimentHeaders, List.mem_zipIdx_iff_getElem?]

theorem pairwise_experimentHeaders (table : Table) :
    table.experimentHeaders.Pairwise fun header other => header.2 < other.2 := by
  apply List.Pairwise.filter
  rw [← List.pairwise_map (R := (· < ·)), List.zipIdx_map_snd]
  exact List.pairwise_lt_range'

theorem mem_headers_of_mem_take {name : String} (hname : name ∈ table.experimentColumns.take columns) :
    name ∈ table.headers :=
  List.mem_of_mem_filter (List.mem_of_mem_take hname)

theorem nodup_ownPlaces (table : Table) (columns : Nat) : (table.ownPlaces columns).Nodup := by
  rw [ownPlaces, List.nodup_iff_pairwise_ne, List.pairwise_map]
  exact table.pairwise_experimentHeaders.take.imp Nat.ne_of_lt

theorem firstPlaces_eq_map (table : Table) (columns : Nat) :
    table.firstPlaces columns =
      (table.experimentHeaders.take columns).map fun header => table.headers.idxOf header.1 := by
  rw [firstPlaces, ← map_fst_experimentHeaders, ← List.map_take, List.map_map]
  rfl

/-- The experiments left of a chosen one are chosen too. -/
theorem mem_take_of_le {header other : String × Nat} (hheader : header ∈ table.experimentHeaders.take columns)
    (hother : other ∈ table.experimentHeaders) (hle : other.2 ≤ header.2) :
    other ∈ table.experimentHeaders.take columns := by
  have hpairwise := table.pairwise_experimentHeaders
  rw [← List.take_append_drop columns table.experimentHeaders] at hother hpairwise
  rcases List.mem_append.mp hother with htaken | hleft
  · exact htaken
  · have hless := (List.pairwise_append.mp hpairwise).2.2 header hheader other hleft
    omega

/-- Different names have different first places. -/
theorem nodup_firstPlaces_iff :
    (table.firstPlaces columns).Nodup ↔ (table.experimentColumns.take columns).Nodup := by
  refine ⟨fun hnodup => hnodup.of_map _, fun hnodup => hnodup.map_on ?_⟩
  intro name hname other _ heq
  exact (List.idxOf_inj (mem_headers_of_mem_take hname)).mp heq

/-- An experiment whose name does not stand among the experiments before it has its name's first place. -/
theorem idxOf_eq_of_nodup (hnodup : (table.experimentColumns.take columns).Nodup) {header : String × Nat}
    (hheader : header ∈ table.experimentHeaders.take columns) : table.headers.idxOf header.1 = header.2 := by
  obtain ⟨hplace, hname⟩ := mem_experimentHeaders_iff.mp (List.mem_of_mem_take hheader)
  obtain ⟨hinside, hthere⟩ := List.getElem?_eq_some_iff.mp hplace
  have hmem : header.1 ∈ table.headers := List.mem_of_getElem? hplace
  -- The first place belongs to an experiment too, which is no further right.
  have hfirst : (header.1, table.headers.idxOf header.1) ∈ table.experimentHeaders :=
    mem_experimentHeaders_iff.mpr ⟨List.getElem?_idxOf hmem, hname⟩
  have hle : table.headers.idxOf header.1 ≤ header.2 := by
    by_contra hnot
    have hbefore := List.not_of_lt_findIdx (Nat.lt_of_not_le hnot)
    simp [hthere] at hbefore
  rw [← map_fst_experimentHeaders, ← List.map_take] at hnodup
  exact congrArg Prod.snd (List.inj_on_of_nodup_map hnodup (mem_take_of_le hheader hfirst hle) hheader rfl)

/-- The places where experiments are looked up are their own exactly when no name is repeated. -/
theorem firstPlaces_eq_ownPlaces_iff :
    table.firstPlaces columns = table.ownPlaces columns ↔ (table.experimentColumns.take columns).Nodup := by
  constructor
  · intro heq
    rw [← nodup_firstPlaces_iff, heq]
    exact table.nodup_ownPlaces columns
  · intro hnodup
    rw [firstPlaces_eq_map]
    exact List.map_congr_left fun header hheader => idxOf_eq_of_nodup hnodup hheader

end Table

namespace BarData

/-- The experiments are chosen by their place in the header, and their numbers are then looked up by name. -/
theorem ofTable_eq_ok_iff {table : Table} {columns : Nat} {data : BarData} :
    ofTable table columns = .ok data ↔
      table.textColumn applicationColumn = .ok data.applications ∧
        columns ≤ table.experimentColumns.length ∧
        List.Forall₂ (fun name series => table.column name = .ok series)
          (table.experimentColumns.take columns) data.experiments := by
  rw [← mapM_eq_ok_iff]
  obtain ⟨applications, experiments⟩ := data
  cases htexts : table.textColumn applicationColumn with
  | error error => simp [ofTable, htexts, bind, Except.bind]
  | ok texts =>
    by_cases hfew : table.experimentColumns.length < columns
    · simp [ofTable, htexts, hfew, Nat.not_le_of_lt hfew, bind, Except.bind]
    · have henough : columns ≤ table.experimentColumns.length := by omega
      cases hseries : (table.experimentColumns.take columns).mapM table.column with
      | error error => simp [ofTable, htexts, hfew, hseries, bind, Except.bind]
      | ok series => simp [ofTable, htexts, hfew, hseries, henough, bind, Except.bind, pure, Except.pure]

/-- The experiments are those at the given places of a table: they have the names that stand there, and the
    numbers in the fields there, row by row. -/
def DrawnFrom (data : BarData) (table : Table) (places : List Nat) : Prop :=
  List.Forall₂ (fun place series => table.headers[place]? = some series.name ∧
    table.numbersAt place = series.values.map some) places data.experiments

variable {table : Table} {columns : Nat} {data : BarData}

/-- Each experiment has the name at its own place and the numbers at the first place with that name. -/
theorem forall₂_experimentHeaders (hdata : ofTable table columns = .ok data) :
    List.Forall₂ (fun header series => table.headers[header.2]? = some header.1 ∧ header.1 ∈ table.headers ∧
        series.name = header.1 ∧ table.numbersAt (table.headers.idxOf header.1) = series.values.map some)
      (table.experimentHeaders.take columns) data.experiments := by
  obtain ⟨-, -, hseries⟩ := ofTable_eq_ok_iff.mp hdata
  rw [← Table.map_fst_experimentHeaders, ← List.map_take, List.forall₂_map_left_iff] at hseries
  rw [List.forall₂_and_left]
  refine ⟨?_, hseries.imp fun _ _ hcolumn => Table.column_eq_ok_iff.mp hcolumn⟩
  intro header hheader
  exact (Table.mem_experimentHeaders_iff.mp (List.mem_of_mem_take hheader)).1

theorem length_experiments (hdata : ofTable table columns = .ok data) : data.experiments.length = columns := by
  obtain ⟨-, henough, hseries⟩ := ofTable_eq_ok_iff.mp hdata
  rw [← hseries.length_eq, List.length_take, Nat.min_eq_left henough]

theorem map_name_experiments (hdata : ofTable table columns = .ok data) :
    data.experiments.map Series.name = (table.experimentHeaders.take columns).map Prod.fst := by
  rw [← List.forall₂_eq_eq_eq, List.forall₂_map_left_iff, List.forall₂_map_right_iff]
  exact (forall₂_experimentHeaders hdata).flip.imp fun _ _ hheld => hheld.2.2.1

/-- The numbers of the experiments are those of the first place with each name. -/
theorem drawnFrom_firstPlaces (hdata : ofTable table columns = .ok data) :
    data.DrawnFrom table (table.firstPlaces columns) := by
  rw [DrawnFrom, Table.firstPlaces_eq_map, List.forall₂_map_left_iff]
  apply (forall₂_experimentHeaders hdata).imp
  rintro header series ⟨-, hmem, hname, hnumbers⟩
  rw [hname]
  exact ⟨List.getElem?_idxOf hmem, hnumbers⟩

/-- What is drawn is right if the first place with a name has the same numbers as the place that was meant. -/
theorem drawnFrom_ownPlaces_iff (hdata : ofTable table columns = .ok data) :
    data.DrawnFrom table (table.ownPlaces columns) ↔
      ∀ header ∈ table.experimentHeaders.take columns,
        table.numbersAt header.2 = table.numbersAt (table.headers.idxOf header.1) := by
  rw [DrawnFrom, Table.ownPlaces, List.forall₂_map_left_iff]
  have hheld := forall₂_experimentHeaders hdata
  generalize table.experimentHeaders.take columns = headers at hheld
  generalize data.experiments = experiments at hheld
  induction hheld with
  | nil => simp
  | cons hseries _ ih =>
    obtain ⟨hplace, -, hname, hnumbers⟩ := hseries
    rw [List.forall₂_cons, List.forall_mem_cons]
    exact and_congr (by simp [hplace, hname, hnumbers]) ih

/-- The chart has as many experiments as asked for, named by the first headers that are not the one of the
    applications. Their numbers come from the first place with each name. Those are the experiments' own places
    exactly when no name among them is repeated; otherwise a column is drawn twice, and what is drawn for the
    others is wrong wherever their own numbers differ from those of the first. -/
theorem experiments_drawnFrom (hdata : ofTable table columns = .ok data) :
    data.experiments.length = columns ∧
      data.experiments.map Series.name = (table.experimentHeaders.take columns).map Prod.fst ∧
      data.DrawnFrom table (table.firstPlaces columns) ∧
      (table.firstPlaces columns = table.ownPlaces columns ↔ (table.experimentColumns.take columns).Nodup) ∧
      ((table.firstPlaces columns).Nodup ↔ (table.experimentColumns.take columns).Nodup) ∧
      (data.DrawnFrom table (table.ownPlaces columns) ↔
        ∀ header ∈ table.experimentHeaders.take columns,
          table.numbersAt header.2 = table.numbersAt (table.headers.idxOf header.1)) :=
  ⟨length_experiments hdata, map_name_experiments hdata, drawnFrom_firstPlaces hdata,
    Table.firstPlaces_eq_ownPlaces_iff, Table.nodup_firstPlaces_iff, drawnFrom_ownPlaces_iff hdata⟩

/-- A table whose applications do not stand first, with an experiment more than are drawn. -/
def sampleTable : Table := ⟨["B", "Application", "A", "C"], [["1", "x", "2", ""], ["3", "y", "4", "5"]]⟩

@[inherit_doc sampleTable]
def sampleData : BarData := ⟨["x", "y"], [⟨"B", [1, 3]⟩, ⟨"A", [2, 4]⟩]⟩

theorem sampleTable_drawnFrom :
    ofTable sampleTable 2 = .ok sampleData ∧ sampleData.experiments.length = 2 ∧
      sampleTable.ownPlaces 2 = [0, 2] ∧ sampleData.DrawnFrom sampleTable [0, 2] := by
  have hdata : ofTable sampleTable 2 = .ok sampleData :=
    ofTable_eq_ok_iff.mpr ⟨rfl, by decide,
      .cons (Table.column_eq_ok_iff.mpr ⟨by decide, rfl, by decide +kernel⟩)
        (.cons (Table.column_eq_ok_iff.mpr ⟨by decide, rfl, by decide +kernel⟩) .nil)⟩
  obtain ⟨hlength, -, hdrawn, hown, -⟩ := experiments_drawnFrom hdata
  rw [hown.mpr (by decide)] at hdrawn
  exact ⟨hdata, hlength, rfl, hdrawn⟩

/-- Two experiments of one name with different numbers. -/
def repeatedTable : Table := ⟨["Application", "A", "A"], [["x", "1", "2"]]⟩

@[inherit_doc repeatedTable]
def repeatedData : BarData := ⟨["x"], [⟨"A", [1]⟩, ⟨"A", [1]⟩]⟩

/-- A column that repeats the name of one before it is not drawn: the one before it is drawn again. -/
theorem repeatedTable_drawn_twice :
    Table.ofCsv (Text.encode "Application,A,A\nx,1,2\n") = .ok repeatedTable ∧
      ofTable repeatedTable 2 = .ok repeatedData ∧
      repeatedTable.ownPlaces 2 = [1, 2] ∧ repeatedTable.numbersAt 2 = [some 2] ∧
      repeatedData.DrawnFrom repeatedTable [1, 1] ∧ ¬ repeatedData.DrawnFrom repeatedTable [1, 2] := by
  have hcolumn : repeatedTable.column "A" = .ok ⟨"A", [1]⟩ :=
    Table.column_eq_ok_iff.mpr ⟨by decide, rfl, by decide +kernel⟩
  have hdata : ofTable repeatedTable 2 = .ok repeatedData :=
    ofTable_eq_ok_iff.mpr ⟨rfl, by decide, .cons hcolumn (.cons hcolumn .nil)⟩
  refine ⟨by rfl, hdata, by decide, by decide +kernel, drawnFrom_firstPlaces hdata, ?_⟩
  intro hown
  have hequal := (drawnFrom_ownPlaces_iff hdata).mp hown ("A", 2) (by decide)
  exact absurd hequal (by decide +kernel)

end BarData

end ExperimentCharts
