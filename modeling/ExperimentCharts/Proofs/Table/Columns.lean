import ExperimentCharts.Table
import Mathlib.Data.List.Basic
import Mathlib.Data.List.Forall2

namespace ExperimentCharts

theorem eq_ok_of_toOption {ε α : Type} {result : Except ε α} {a : α} (hresult : result.toOption = some a) :
    result = .ok a := by
  cases result with
  | error error => cases hresult
  | ok value => cases hresult; rfl

/-- A list is loaded item by item, or not at all. -/
theorem mapM_eq_ok_iff {α β ε : Type} {f : α → Except ε β} {items : List α} {results : List β} :
    items.mapM f = .ok results ↔ List.Forall₂ (fun item result => f item = .ok result) items results := by
  induction items generalizing results with
  | nil => simp [pure, Except.pure, eq_comm]
  | cons item items ih =>
    rw [List.mapM_cons, List.forall₂_cons_left_iff]
    cases hitem : f item with
    | error error => simp [bind, Except.bind]
    | ok result =>
      cases hitems : items.mapM f with
      | error error => simp [bind, Except.bind, ← ih, hitems]
      | ok others => simp [bind, Except.bind, pure, Except.pure, ← ih, hitems, eq_comm]

namespace Table

theorem finite?_empty : finite? "" = none := by decide

/-- The fields at a place as finite numbers, row by row. -/
def numbersAt (table : Table) (position : Nat) : List (Option Binary64) :=
  table.rows.map fun row => row[position]?.bind finite?

theorem length_numbersAt (table : Table) (position : Nat) :
    (table.numbersAt position).length = table.rows.length := by
  simp [numbersAt]

/-- A column of texts is read if each of them is a finite number. -/
theorem numbersFrom_eq_ok_iff (name : String) (row : Nat) {texts : List String} {values : List Binary64} :
    numbersFrom name row texts = .ok values ↔ texts.map finite? = values.map some := by
  induction texts generalizing row values with
  | nil => cases values <;> simp [numbersFrom]
  | cons text texts ih =>
    cases hvalue : finite? text with
    | none => cases values <;> simp [numbersFrom, hvalue]
    | some value =>
      cases hrest : numbersFrom name (row + 1) texts with
      | error error =>
        cases values with
        | nil => simp [numbersFrom, hvalue, hrest, bind, Except.bind]
        | cons first values => simp [numbersFrom, hvalue, hrest, ← ih (row + 1), bind, Except.bind]
      | ok others =>
        cases values with
        | nil => simp [numbersFrom, hvalue, hrest, bind, Except.bind, pure, Except.pure]
        | cons first values =>
          simp [numbersFrom, hvalue, hrest, ← ih (row + 1), bind, Except.bind, pure, Except.pure]

/-- A name is looked up at its first occurrence. -/
theorem idxOf?_of_mem {headers : List String} {name : String} (hname : name ∈ headers) :
    headers.idxOf? name = some (headers.idxOf name) := by
  rw [List.idxOf?_eq_some_iff]
  refine ⟨List.idxOf_lt_length_iff.mpr hname, List.getElem_idxOf _, ?_⟩
  intro before hbefore
  simpa using List.not_of_lt_findIdx hbefore

/-- The text of each row under a name: that of its field, or the empty one if it has none. -/
def textsUnder (table : Table) (name : String) : List String :=
  table.rows.map fun row => (table.field? row name).getD ""

variable {table : Table} {name : String}

theorem field?_of_mem (hname : name ∈ table.headers) (row : List String) :
    table.field? row name = row[table.headers.idxOf name]? := by
  simp [field?, idxOf?_of_mem hname]

theorem field?_of_not_mem (hname : name ∉ table.headers) (row : List String) : table.field? row name = none := by
  simp [field?, List.idxOf?_eq_none_iff.mpr hname]

theorem textColumn_of_not_mem (hname : name ∉ table.headers) :
    table.textColumn name = .error (.missingColumn name) := by
  simp [textColumn, List.idxOf?_eq_none_iff.mpr hname]

/-- A column is looked up at the first place with its name. The empty text stands for a missing field. -/
theorem textColumn_of_mem (hname : name ∈ table.headers) :
    table.textColumn name = .ok (table.textsUnder name) := by
  simp only [textColumn, textsUnder, idxOf?_of_mem hname, field?_of_mem hname, List.getD_eq_getElem?_getD]

theorem textColumn_eq_error_iff :
    table.textColumn name = .error (.missingColumn name) ↔ name ∉ table.headers := by
  by_cases hname : name ∈ table.headers
  · simp [textColumn_of_mem hname, hname]
  · simp [textColumn_of_not_mem hname, hname]

theorem length_of_textColumn {texts : List String} (htexts : table.textColumn name = .ok texts) :
    texts.length = table.rows.length := by
  unfold textColumn at htexts
  split at htexts
  · cases htexts
    simp
  · cases htexts

/-- However the texts of a column are read, as long as the empty text is not, they are read as the fields at
    the first place with its name. -/
theorem exists_textColumn (hname : name ∈ table.headers) :
    ∃ texts, table.textColumn name = .ok texts ∧
      ∀ read : String → Option Binary64, read "" = none →
        texts.map read = table.rows.map fun row => row[table.headers.idxOf name]?.bind read := by
  refine ⟨table.rows.map fun row => row.getD (table.headers.idxOf name) "", ?_, ?_⟩
  · simp only [textColumn, idxOf?_of_mem hname]
  intro read hempty
  rw [List.map_map]
  apply List.map_congr_left
  intro row _
  rw [Function.comp_apply, List.getD_eq_getElem?_getD]
  cases row[table.headers.idxOf name]? with
  | none => simp [hempty]
  | some text => rfl

/-- A strict column is the finite numbers at the first place with its name. Short rows need no case of their own,
    because the empty text is no number. -/
theorem column_eq_ok_iff {series : Series} :
    table.column name = .ok series ↔
      name ∈ table.headers ∧ series.name = name ∧
        table.numbersAt (table.headers.idxOf name) = series.values.map some := by
  by_cases hname : name ∈ table.headers
  · obtain ⟨texts, htexts, hread⟩ := exists_textColumn hname
    rw [column, htexts, numbersAt, ← hread finite? finite?_empty, ← numbersFrom_eq_ok_iff name 1]
    obtain ⟨seriesName, values⟩ := series
    cases hnumbers : numbersFrom name 1 texts with
    | error error => simp [hnumbers, bind, Except.bind]
    | ok numbers => simp [hnumbers, hname, bind, Except.bind, pure, Except.pure, eq_comm]
  · simp [column, textColumn_of_not_mem hname, hname, bind, Except.bind]

theorem lossyColumn_of_not_mem (hname : name ∉ table.headers) :
    table.lossyColumn name = .error (.missingColumn name) := by
  rw [lossyColumn, textColumn_of_not_mem hname]
  rfl

theorem length_values_of_column {series : Series} (hcolumn : table.column name = .ok series) :
    series.values.length = table.rows.length := by
  obtain ⟨-, -, hnumbers⟩ := column_eq_ok_iff.mp hcolumn
  rw [← table.length_numbersAt, hnumbers, List.length_map]

end Table

end ExperimentCharts
