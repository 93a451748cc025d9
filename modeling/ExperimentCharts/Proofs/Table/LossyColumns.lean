import ExperimentCharts.Proofs.Binary64.Real
import ExperimentCharts.Proofs.Table.Columns

namespace ExperimentCharts.Table

/-- The values that are kept of some texts, in their order, and the number of the other texts. -/
inductive Kept : List String → List Binary64 → Nat → Prop
  | nil : Kept [] [] 0
  | keep {text : String} {value : Binary64} {texts : List String} {values : List Binary64} {dropped : Nat} :
      Binary64.read? text = some value → value.isNaN = false → Kept texts values dropped →
        Kept (text :: texts) (value :: values) dropped
  | drop {text : String} {texts : List String} {values : List Binary64} {dropped : Nat} :
      (∀ value, Binary64.read? text = some value → value.isNaN = true) → Kept texts values dropped →
        Kept (text :: texts) values (dropped + 1)

variable {text : String} {value : Binary64}

/-- The lossy column keeps a text that is read as anything but not-a-number. -/
theorem ordered?_eq_some_iff :
    ordered? text = some value ↔ Binary64.read? text = some value ∧ value.isNaN = false := by
  simp [ordered?, Option.filter_eq_some_iff]

theorem ordered?_eq_none_iff :
    ordered? text = none ↔ ∀ value, Binary64.read? text = some value → value.isNaN = true := by
  simp [ordered?, Option.filter_eq_none_iff]

theorem finite?_eq_some_iff :
    finite? text = some value ↔ Binary64.read? text = some value ∧ value.isFinite = true := by
  simp [finite?, Option.filter_eq_some_iff]

theorem finite?_eq_none_iff :
    finite? text = none ↔ ∀ value, Binary64.read? text = some value → value.isFinite = false := by
  simp [finite?, Option.filter_eq_none_iff]

variable {texts : List String} {values : List Binary64} {dropped : Nat}

/-- The texts that can be ordered are kept, and the others are dropped. -/
theorem exists_kept (texts : List String) : ∃ dropped, Kept texts (texts.filterMap ordered?) dropped := by
  induction texts with
  | nil => exact ⟨0, .nil⟩
  | cons text texts ih =>
    obtain ⟨dropped, hkept⟩ := ih
    cases htext : ordered? text with
    | none =>
      rw [List.filterMap_cons_none htext]
      exact ⟨dropped + 1, .drop (ordered?_eq_none_iff.mp htext) hkept⟩
    | some value =>
      rw [List.filterMap_cons_some htext]
      obtain ⟨hread, hnan⟩ := ordered?_eq_some_iff.mp htext
      exact ⟨dropped, .keep hread hnan hkept⟩

theorem Kept.length_eq (hkept : Kept texts values dropped) : texts.length = values.length + dropped := by
  induction hkept with
  | nil => rfl
  | keep _ _ _ ih => simp [ih, Nat.add_right_comm]
  | drop _ _ ih => simp [ih, Nat.add_assoc]

/-- All texts are finite numbers if and only if none is dropped and all kept values are finite. -/
theorem Kept.map_finite?_eq_iff (hkept : Kept texts values dropped) {numbers : List Binary64} :
    texts.map finite? = numbers.map some ↔
      numbers = values ∧ dropped = 0 ∧ ∀ value ∈ values, value.isFinite = true := by
  induction hkept generalizing numbers with
  | nil => simp
  | @keep text value texts values dropped hread hnan hkept ih =>
    cases hfinite : value.isFinite with
    | false =>
      have hnone : finite? text = none := by simp [finite?_eq_none_iff, hread, hfinite]
      cases numbers <;> simp [hnone, hfinite]
    | true =>
      have hsome : finite? text = some value := finite?_eq_some_iff.mpr ⟨hread, hfinite⟩
      cases numbers with
      | nil => simp
      | cons number numbers => simp [hsome, hfinite, ih, and_assoc, @eq_comm _ value number]
  | @drop text texts values dropped hdrop hkept ih =>
    have hnone : finite? text = none := by
      rw [finite?_eq_none_iff]
      intro value hread
      by_contra hfinite
      simpa [hdrop value hread] using Binary64.isNaN_of_isFinite (Bool.eq_true_of_not_eq_false hfinite)
    cases numbers <;> simp [hnone]

/-- Where the strict column refuses nothing, both keep the same. -/
theorem filterMap_ordered?_eq_of_finite {numbers : List Binary64} (hfinite : texts.map finite? = numbers.map some) :
    texts.filterMap ordered? = numbers := by
  obtain ⟨dropped, hkept⟩ := exists_kept texts
  exact (hkept.map_finite?_eq_iff.mp hfinite).1.symm

/-- What the strict column keeps is what the texts are read as. -/
theorem map_read?_of_finite {numbers : List Binary64} (hfinite : texts.map finite? = numbers.map some) :
    texts.map Binary64.read? = numbers.map some ∧ ∀ value ∈ numbers, value.isFinite = true := by
  induction texts generalizing numbers with
  | nil =>
    obtain rfl : numbers = [] := by simpa using hfinite
    simp
  | cons text texts ih =>
    cases numbers with
    | nil => simp at hfinite
    | cons number numbers =>
      simp only [List.map_cons, List.cons.injEq] at hfinite
      obtain ⟨hread, hnumber⟩ := finite?_eq_some_iff.mp hfinite.1
      obtain ⟨hreads, hnumbers⟩ := ih hfinite.2
      exact ⟨by simp [hread, hreads], List.forall_mem_cons.mpr ⟨hnumber, hnumbers⟩⟩

/-- The first text that is no finite number, by the texts before it and their values. -/
structure IsFirstRefused (texts before : List String) (text : String) (earlier : List Binary64) : Prop where
  leads : before ++ [text] <+: texts
  refused : ∀ value, Binary64.read? text = some value → value.isFinite = false
  read : before.map Binary64.read? = earlier.map some
  finite : ∀ value ∈ earlier, value.isFinite = true

/-- The error of a strict column is about the first text that is refused. -/
theorem exists_split_of_numbersFrom {name : String} {row : Nat} {error : ChartError}
    (herror : numbersFrom name row texts = .error error) :
    ∃ before text after, ∃ earlier : List Binary64, texts = before ++ text :: after ∧ finite? text = none ∧
      before.map finite? = earlier.map some ∧ error = .notANumber name (row + before.length) text := by
  induction texts generalizing row with
  | nil => cases herror
  | cons text texts ih =>
    cases hvalue : finite? text with
    | none =>
      simp only [numbersFrom, hvalue, Except.error.injEq] at herror
      exact ⟨[], text, texts, [], rfl, hvalue, rfl, herror.symm⟩
    | some value =>
      have hrest : numbersFrom name (row + 1) texts = .error error := by
        cases hnumbers : numbersFrom name (row + 1) texts with
        | ok numbers => simp [numbersFrom, hvalue, hnumbers, bind, Except.bind, pure, Except.pure] at herror
        | error other => simpa [numbersFrom, hvalue, hnumbers, bind, Except.bind] using herror
      obtain ⟨before, refused, after, earlier, rfl, hnone, hearlier, rfl⟩ := ih hrest
      refine ⟨text :: before, refused, after, value :: earlier, rfl, hnone, by simp [hvalue, hearlier], ?_⟩
      rw [List.length_cons, Nat.add_assoc, Nat.add_comm 1]

/-- What a lossy column says of the texts that it left out. -/
def droppedNotices (name : String) (dropped : Nat) : List Notice :=
  if dropped = 0 then []
  else [⟨.info, Notice.mainTarget, s!"column '{name}': dropped {dropped} missing or invalid values"⟩]

/-- The strict and the lossy column under a name agree: they miss the same names; the lossy one has the values that are
    kept, and says how many texts are not; the strict one is the lossy one if nothing is dropped and all is finite,
    and otherwise names the first text that is refused, up to which both have the same values. -/
structure ColumnsAgree (table : Table) (name : String) : Prop where
  missing_iff : table.column name = .error (.missingColumn name) ↔
    table.lossyColumn name = .error (.missingColumn name)
  missing_iff_not_mem : table.lossyColumn name = .error (.missingColumn name) ↔ name ∉ table.headers
  lossy : name ∈ table.headers → ∃ values dropped, table.lossyColumn name = .ok ⟨name, values⟩ ∧
    Kept (table.textsUnder name) values dropped ∧ table.lossyNotices name = droppedNotices name dropped
  strict_iff : ∀ series, table.column name = .ok series ↔
    table.lossyColumn name = .ok series ∧ table.lossyNotices name = [] ∧ ∀ value ∈ series.values, value.isFinite = true
  refused : ∀ error, name ∈ table.headers → table.column name = .error error →
    ∃ before text earlier series, error = .notANumber name (before.length + 1) text ∧
      IsFirstRefused (table.textsUnder name) before text earlier ∧
      table.lossyColumn name = .ok series ∧ earlier <+: series.values

variable {table : Table} {name : String}

/-- Both columns go over the same texts, one for each row, in which the empty text stands for a missing field. -/
theorem column_of_mem (hname : name ∈ table.headers) :
    table.column name = (numbersFrom name 1 (table.textsUnder name)).map (Series.mk name) := by
  rw [column, textColumn_of_mem hname]
  cases hnumbers : numbersFrom name 1 (table.textsUnder name) <;>
    simp [hnumbers, bind, Except.bind, pure, Except.pure, Except.map]

/-- The strict column is there if it refuses no text. -/
theorem column_eq_ok_iff_map_finite? (hname : name ∈ table.headers) {series : Series} :
    table.column name = .ok series ↔
      series.name = name ∧ (table.textsUnder name).map finite? = series.values.map some := by
  obtain ⟨title, values⟩ := series
  rw [column_of_mem hname, ← numbersFrom_eq_ok_iff name 1]
  cases numbersFrom name 1 (table.textsUnder name) <;> simp [Except.map, @eq_comm _ name title]

theorem lossyColumn_eq_filterMap (hname : name ∈ table.headers) :
    table.lossyColumn name = .ok ⟨name, (table.textsUnder name).filterMap ordered?⟩ := by
  rw [lossyColumn, textColumn_of_mem hname]
  rfl

/-- One notice tells how many texts were dropped. -/
theorem lossyNotices_of_kept (hname : name ∈ table.headers)
    (hkept : Kept (table.textsUnder name) ((table.textsUnder name).filterMap ordered?) dropped) :
    table.lossyNotices name = droppedNotices name dropped := by
  have hdropped : (table.textsUnder name).length - ((table.textsUnder name).filterMap ordered?).length = dropped := by
    rw [hkept.length_eq, Nat.add_sub_cancel_left]
  simp only [lossyNotices, textColumn_of_mem hname, hdropped, droppedNotices]

theorem droppedNotices_eq_nil_iff : droppedNotices name dropped = [] ↔ dropped = 0 := by
  simp [droppedNotices]

theorem column_of_not_mem (hname : name ∉ table.headers) : table.column name = .error (.missingColumn name) := by
  rw [column, textColumn_of_not_mem hname]
  rfl

/-- The error of a strict column that is there. -/
theorem exists_isFirstRefused_of_column {error : ChartError} (hname : name ∈ table.headers)
    (herror : table.column name = .error error) :
    ∃ before text earlier, error = .notANumber name (before.length + 1) text ∧
      IsFirstRefused (table.textsUnder name) before text earlier ∧
      earlier <+: (table.textsUnder name).filterMap ordered? := by
  have hnumbers : numbersFrom name 1 (table.textsUnder name) = .error error := by
    rw [column_of_mem hname] at herror
    cases hnumbers : numbersFrom name 1 (table.textsUnder name) with
    | ok numbers => simp [hnumbers, Except.map] at herror
    | error other => simpa [hnumbers, Except.map] using herror
  obtain ⟨before, text, after, earlier, hsplit, hnone, hearlier, rfl⟩ := exists_split_of_numbersFrom hnumbers
  obtain ⟨hread, hfinite⟩ := map_read?_of_finite hearlier
  refine ⟨before, text, earlier, by rw [Nat.add_comm], ⟨?_, finite?_eq_none_iff.mp hnone, hread, hfinite⟩, ?_⟩
  · exact ⟨after, by simp [hsplit]⟩
  · rw [hsplit, List.filterMap_append, filterMap_ordered?_eq_of_finite hearlier]
    exact List.prefix_append _ _

/-- The strict and the lossy column of a table agree, whatever the lengths of its rows are. -/
theorem column_agrees_lossyColumn (table : Table) (name : String) : table.ColumnsAgree name := by
  by_cases hname : name ∈ table.headers
  · obtain ⟨dropped, hkept⟩ := exists_kept (table.textsUnder name)
    have hlossy := lossyColumn_eq_filterMap hname
    have hnotices := lossyNotices_of_kept hname hkept
    refine ⟨?_, ?_, fun _ => ⟨_, dropped, hlossy, hkept, hnotices⟩, ?_, ?_⟩
    · constructor
      · intro hmissing
        obtain ⟨before, text, -, herror, -⟩ := exists_isFirstRefused_of_column hname hmissing
        cases herror
      · intro hmissing
        simp [hlossy] at hmissing
    · simp [hlossy, hname]
    · rintro ⟨title, values⟩
      rw [column_eq_ok_iff_map_finite? hname, hkept.map_finite?_eq_iff, hlossy, hnotices, droppedNotices_eq_nil_iff]
      simp only [Except.ok.injEq, Series.mk.injEq]
      constructor
      · rintro ⟨rfl, rfl, hzero, hfinite⟩
        exact ⟨⟨rfl, rfl⟩, hzero, hfinite⟩
      · rintro ⟨⟨rfl, rfl⟩, hzero, hfinite⟩
        exact ⟨rfl, rfl, hzero, hfinite⟩
    · intro error _ herror
      obtain ⟨before, text, earlier, hplace, hfirst, hearlier⟩ := exists_isFirstRefused_of_column hname herror
      exact ⟨before, text, earlier, _, hplace, hfirst, hlossy, hearlier⟩
  · have hstrict := column_of_not_mem hname
    have hlossy := lossyColumn_of_not_mem hname
    refine ⟨by simp [hstrict, hlossy], by simp [hlossy, hname], ?_, ?_, ?_⟩
    · exact fun hmem => absurd hmem hname
    · simp [hstrict, hlossy]
    · exact fun _ hmem => absurd hmem hname

end ExperimentCharts.Table
