import ExperimentCharts.Binary64.Text
import ExperimentCharts.Error
import ExperimentCharts.Log

namespace ExperimentCharts

/-- The names of the columns and the rows, in file order. A table from a file has as many fields in
    every row as there are names; a table made by hand may not. -/
structure Table where
  headers : List String
  rows : List (List String)
deriving DecidableEq

/-- A named list of numbers. -/
structure Series where
  name : String
  values : List Binary64
deriving DecidableEq

namespace Table

/-- The table in a file of comma-separated values. -/
def ofCsv (bytes : List UInt8) : Except Csv.Error Table := do
  let (headers, rows) ← Csv.read bytes
  return ⟨headers, rows⟩

/-- The field of a row under a name: where a name is repeated, its first column counts. -/
def field? (table : Table) (row : List String) (name : String) : Option String := do
  let index ← table.headers.idxOf? name
  row[index]?

/-- The texts of a column; a row that is too short has the empty text. -/
def textColumn (table : Table) (name : String) : Except ChartError (List String) :=
  match table.headers.idxOf? name with
  | some index => .ok (table.rows.map fun row => row.getD index "")
  | none => .error (.missingColumn name)

/-- A text as a finite number. -/
def finite? (text : String) : Option Binary64 := (Binary64.read? text).filter Binary64.isFinite

/-- A text as anything but not-a-number. -/
def ordered? (text : String) : Option Binary64 :=
  (Binary64.read? text).filter fun value => !value.isNaN

/-- The finite numbers of a column from the given row on. The first text that is none is the error. -/
def numbersFrom (name : String) (row : Nat) : List String → Except ChartError (List Binary64)
  | [] => .ok []
  | text :: texts =>
    match finite? text with
    | some value => return value :: (← numbersFrom name (row + 1) texts)
    | none => .error (.notANumber name row text)

/-- A column in which every text is a finite number. -/
def column (table : Table) (name : String) : Except ChartError Series := do
  let texts ← table.textColumn name
  return ⟨name, ← numbersFrom name 1 texts⟩

/-- The numbers of a column, without the texts that are none. -/
def lossyColumn (table : Table) (name : String) : Except ChartError Series := do
  let texts ← table.textColumn name
  return ⟨name, texts.filterMap ordered?⟩

/-- What `lossyColumn` says: how many texts it left out, if any. -/
def lossyNotices (table : Table) (name : String) : List Notice :=
  match table.textColumn name with
  | .error _ => []
  | .ok texts =>
    let dropped := texts.length - (texts.filterMap ordered?).length
    if dropped = 0 then []
    else [⟨.info, Notice.mainTarget,
      s!"column '{name}': dropped {dropped} missing or invalid values"⟩]

/-- The header and the rows as lines, the fields joined by commas as they are. -/
def render (table : Table) : String :=
  String.join ((table.headers :: table.rows).map fun fields => ",".intercalate fields ++ "\n")

end Table

/-- The percentage that a rank is of a count. -/
def rankPercentage (count rank : Nat) : Binary64 := rank * (100 : Binary64) / count

namespace Series

/-- The values that have a place in the numeric order, ascending. -/
def ordered (series : Series) : List Binary64 :=
  Binary64.sorted (series.values.filter fun value => !value.isNaN)

/-- The empirical distribution: the values ascending, each with its rank as a percentage of their
    number. -/
def distribution (series : Series) : List (Binary64 × Binary64) :=
  let values := series.ordered
  values.mapIdx fun index value => (rankPercentage values.length (index + 1), value)

end Series

/-- The range of two bounds widened to hold one more value. A value that compares with neither bound
    changes none. -/
def widen {α : Type} [LT α] [DecidableLT α] (range : α × α) (value : α) : α × α :=
  (if value < range.1 then value else range.1, if range.2 < value then value else range.2)

/-- The least and the greatest of some values. -/
def minAndMax {α : Type} [LT α] [DecidableLT α] : List α → Option (α × α)
  | [] => none
  | first :: rest => some (rest.foldl widen (first, first))

end ExperimentCharts
