import ExperimentCharts.Proofs.Table.Columns
import ExperimentCharts.Proofs.Text.Trim

namespace ExperimentCharts

namespace Csv

/-- The text that a field is read as. -/
def IsTextOf (field : List UInt8) (text : String) : Prop :=
  ∃ found, Text.decode field = .ok found ∧ text = Text.trim found

/-- The white space of a field is cut off. -/
theorem IsTextOf.isTrimmed {field : List UInt8} {text : String} (htext : IsTextOf field text) :
    Text.IsTrimmed text := by
  obtain ⟨found, -, rfl⟩ := htext
  exact Text.isTrimmed_trim found

theorem decodeFields_eq_ok_iff (start : Position) (index : Nat) {fields : List (List UInt8)} {texts : List String} :
    decodeFields start index fields = .ok texts ↔ List.Forall₂ IsTextOf fields texts := by
  induction fields generalizing index texts with
  | nil => simp [decodeFields, eq_comm]
  | cons field fields ih =>
    rw [List.forall₂_cons_left_iff]
    cases hfield : Text.decode field with
    | error byte => simp [decodeFields, hfield, IsTextOf]
    | ok found =>
      cases hrest : decodeFields start (index + 1) fields with
      | error error => simp [decodeFields, hfield, hrest, ← ih (index + 1), bind, Except.bind]
      | ok others =>
        simp [decodeFields, hfield, hrest, ← ih (index + 1), IsTextOf, bind, Except.bind, pure, Except.pure, eq_comm]

/-- The texts of a record: as many as it has fields, and none with white space at an end. -/
structure IsRow (width : Nat) (texts : List String) : Prop where
  length_eq : texts.length = width
  trimmed : ∀ text ∈ texts, Text.IsTrimmed text

theorem isRow_of_forall₂ {fields : List (List UInt8)} {texts : List String}
    (htexts : List.Forall₂ IsTextOf fields texts) : IsRow fields.length texts := by
  induction htexts with
  | nil => exact ⟨rfl, by simp⟩
  | cons htext _ ih => exact ⟨by simp [ih.length_eq], List.forall_mem_cons.mpr ⟨htext.isTrimmed, ih.trimmed⟩⟩

theorem isRow_of_decodeFields {start : Position} {index : Nat} {fields : List (List UInt8)} {texts : List String}
    (hdecode : decodeFields start index fields = .ok texts) : IsRow fields.length texts :=
  isRow_of_forall₂ ((decodeFields_eq_ok_iff start index).mp hdecode)

/-- A record becomes a row only if it has as many fields as the first one. -/
theorem isRow_of_row {width : Nat} {record : Record} {texts : List String} (hrow : row width record = .ok texts) :
    IsRow width texts := by
  unfold row at hrow
  split at hrow
  · rename_i hwidth
    simpa [hwidth] using isRow_of_decodeFields hrow
  · cases hrow

theorem isRow_of_mapM_row {width : Nat} {records : List Record} {rows : List (List String)}
    (hrows : records.mapM (row width) = .ok rows) : ∀ texts ∈ rows, IsRow width texts := by
  have hpairs := mapM_eq_ok_iff.mp hrows
  clear hrows
  induction hpairs with
  | nil => simp
  | cons hrow _ ih => exact List.forall_mem_cons.mpr ⟨isRow_of_row hrow, ih⟩

/-- A file that can be read is as wide everywhere as its first record. -/
theorem exists_isRow_of_read {bytes : List UInt8} {names : List String} {rows : List (List String)}
    (hread : read bytes = .ok (names, rows)) : ∃ width, ∀ texts ∈ names :: rows, IsRow width texts := by
  unfold read at hread
  split at hread
  · cases hread
    exact ⟨0, by simpa using (⟨rfl, by simp⟩ : IsRow 0 [])⟩
  · rename_i first rest _
    refine ⟨first.fields.length, ?_⟩
    cases hnames : header first with
    | error error => simp [hnames, bind, Except.bind] at hread
    | ok found =>
      cases hrows : rest.mapM (row first.fields.length) with
      | error error => simp [hnames, hrows, bind, Except.bind] at hread
      | ok others =>
        simp only [hnames, hrows, bind, Except.bind, pure, Except.pure, Except.ok.injEq, Prod.mk.injEq] at hread
        obtain ⟨rfl, rfl⟩ := hread
        exact List.forall_mem_cons.mpr ⟨isRow_of_decodeFields hnames, isRow_of_mapM_row hrows⟩

end Csv

namespace Table

/-- Every row has a field for each name, and neither names nor fields have white space at their ends. -/
structure IsRegular (table : Table) : Prop where
  length_row : ∀ row ∈ table.rows, row.length = table.headers.length
  trimmed_header : ∀ name ∈ table.headers, Text.IsTrimmed name
  trimmed_field : ∀ row ∈ table.rows, ∀ text ∈ row, Text.IsTrimmed text

/-- Whatever the bytes are, a table from a file is regular. -/
theorem isRegular_of_ofCsv {bytes : List UInt8} {table : Table} (hload : ofCsv bytes = .ok table) :
    table.IsRegular := by
  unfold ofCsv at hload
  cases hread : Csv.read bytes with
  | error error => simp [hread, bind, Except.bind] at hload
  | ok parts =>
    obtain ⟨names, rows⟩ := parts
    simp only [hread, bind, Except.bind, pure, Except.pure, Except.ok.injEq] at hload
    subst hload
    obtain ⟨width, hwidth⟩ := Csv.exists_isRow_of_read hread
    obtain ⟨hnames, hrows⟩ := List.forall_mem_cons.mp hwidth
    exact ⟨fun row hrow => (hrows row hrow).length_eq.trans hnames.length_eq.symm, hnames.trimmed,
      fun row hrow => (hrows row hrow).trimmed⟩

variable {table : Table} {name : String}

/-- A column of a regular table has the field of each row. -/
theorem IsRegular.textColumn_map_some (hregular : table.IsRegular) (hname : name ∈ table.headers) :
    ∃ texts, table.textColumn name = .ok texts ∧ texts.map some = table.rows.map fun row => table.field? row name := by
  refine ⟨_, textColumn_of_mem hname, ?_⟩
  rw [textsUnder, List.map_map]
  apply List.map_congr_left
  intro row hrow
  have hplace : table.headers.idxOf name < row.length := by
    rw [hregular.length_row row hrow]
    exact List.idxOf_lt_length_iff.mpr hname
  simp [field?_of_mem hname, hplace]

/-- A table from a file is regular. A column is missing if and only if its name is, and then no row has a field of it;
    otherwise its texts are those of the rows. -/
theorem ofCsv_regular {bytes : List UInt8} {table : Table} (hload : ofCsv bytes = .ok table) :
    table.IsRegular ∧ ∀ name,
      (table.textColumn name = .error (.missingColumn name) ↔
        (∀ row ∈ table.rows, table.field? row name = none) ∧ name ∉ table.headers) ∧
      (table.textColumn name ≠ .error (.missingColumn name) →
        ∃ texts, table.textColumn name = .ok texts ∧
          texts.map some = table.rows.map fun row => table.field? row name) := by
  have hregular := isRegular_of_ofCsv hload
  refine ⟨hregular, fun name => ⟨?_, ?_⟩⟩
  · rw [textColumn_eq_error_iff, iff_and_self]
    exact fun hname row _ => field?_of_not_mem hname row
  · rw [ne_eq, textColumn_eq_error_iff, not_not]
    exact hregular.textColumn_map_some

/-- A byte order mark, empty lines, every line end, quotes, white space of Unicode and a repeated name. -/
def irregularFile : List UInt8 := [0xEF, 0xBB, 0xBF] ++ Text.encode
  "\n Name ,\"A\"\"b\",Name\r\n\u3000x\u00a0,\" 1\n2 \",\r\n\n\"\",y,z\r"

@[inherit_doc irregularFile]
def irregularTable : Table where
  headers := ["Name", "A\"b", "Name"]
  rows := [["x", "1\n2", ""], ["", "y", "z"]]

/-- A mark before the header and blanks around the fields leave a regular table. -/
theorem ofCsv_irregularFile_regular :
    ofCsv irregularFile = .ok irregularTable ∧ irregularTable.IsRegular ∧
      irregularTable.textColumn "B" = .error (.missingColumn "B") ∧
      ∃ texts, irregularTable.textColumn "Name" = .ok texts ∧ texts.map some = [some "x", some ""] := by
  have hload : ofCsv irregularFile = .ok irregularTable := eq_ok_of_toOption (by decide +kernel)
  obtain ⟨hregular, hcolumns⟩ := ofCsv_regular hload
  refine ⟨hload, hregular, (hcolumns "B").1.mpr (by decide), (hcolumns "Name").2 ?_⟩
  simp [textColumn_eq_error_iff, irregularTable]

end Table

end ExperimentCharts
