import ExperimentCharts.Text.Blank
import ExperimentCharts.Text.Utf8

namespace ExperimentCharts.Csv

def comma : UInt8 := 44
def quote : UInt8 := 34
def lineFeed : UInt8 := 10
def carriageReturn : UInt8 := 13

/-- A byte that ends a record outside quotes. -/
def isBreak (byte : UInt8) : Bool := byte == lineFeed || byte == carriageReturn

/-- Where the reader stood before a record: the number of records read, the line and the byte. Empty
    lines in front of the record come after this place. -/
structure Position where
  record : Nat
  line : Nat
  byte : Nat
deriving DecidableEq

/-- The fields of a record as bytes, without quotes. -/
structure Record where
  start : Position
  fields : List (List UInt8)
deriving DecidableEq

/-- What the next byte means. -/
inductive Phase where
  | recordStart
  | fieldStart
  | bare
  | quoted
  | quoteSeen
deriving DecidableEq

/-- A record that is being read: the fields before the current one and the bytes of the current one,
    both in reverse, and how far the reader has come. -/
structure Scan where
  phase : Phase
  start : Position
  line : Nat
  byte : Nat
  fields : List (List UInt8)
  field : List UInt8

namespace Scan

/-- The reader before the first byte that is not part of a byte order mark. -/
def initial (markLength : Nat) : Scan := ⟨.recordStart, ⟨0, 1, 0⟩, 1, markLength, [], []⟩

def addByte (scan : Scan) (phase : Phase) (byte : UInt8) : Scan :=
  { scan with phase, field := byte :: scan.field }

/-- A comma ends the field. -/
def endField (scan : Scan) : Scan :=
  { scan with phase := .fieldStart, fields := scan.field.reverse :: scan.fields, field := [] }

/-- The record up to here. -/
def record (scan : Scan) : Record := ⟨scan.start, (scan.field.reverse :: scan.fields).reverse⟩

/-- The reader after a record. A line feed that follows a carriage return is an empty line to it. -/
def afterRecord (scan : Scan) : Scan where
  phase := .recordStart
  start := ⟨scan.start.record + 1, scan.line, scan.byte⟩
  line := scan.line
  byte := scan.byte
  fields := []
  field := []

/-- A byte outside quotes: a comma ends the field, a line break the record, and any other byte is
    text. -/
def unquoted (scan : Scan) (byte : UInt8) : Scan × Option Record :=
  if byte = comma then (scan.endField, none)
  else if isBreak byte then (scan.afterRecord, some scan.record)
  else (scan.addByte .bare byte, none)

/-- The first byte of a field. -/
def openField (scan : Scan) (byte : UInt8) : Scan × Option Record :=
  if byte = quote then ({ scan with phase := .quoted }, none)
  else scan.unquoted byte

/-- A byte between records: line breaks are skipped. -/
def openRecord (scan : Scan) (byte : UInt8) : Scan × Option Record :=
  if isBreak byte then (scan, none) else scan.openField byte

/-- Counts a byte, and a line at each line feed. -/
def count (scan : Scan) (byte : UInt8) : Scan :=
  { scan with
    byte := scan.byte + 1
    line := if byte = lineFeed then scan.line + 1 else scan.line }

/-- One byte: the reader after it, and the record if it ended one. -/
def step (scan : Scan) (byte : UInt8) : Scan × Option Record :=
  let scan := scan.count byte
  match scan.phase with
  | .recordStart => scan.openRecord byte
  | .fieldStart => scan.openField byte
  | .bare => scan.unquoted byte
  | .quoted =>
    if byte = quote then ({ scan with phase := .quoteSeen }, none)
    else (scan.addByte .quoted byte, none)
  | .quoteSeen =>
    if byte = quote then (scan.addByte .quoted byte, none)
    else scan.unquoted byte

/-- The records in the bytes to come; the end of the bytes ends a record too. -/
def records (scan : Scan) : List UInt8 → List Record
  | [] =>
    match scan.phase with
    | .recordStart => []
    | _ => [scan.record]
  | byte :: bytes =>
    match scan.step byte with
    | (scan, some record) => record :: scan.records bytes
    | (scan, none) => scan.records bytes

end Scan

/-- The records in a file, after a byte order mark if there is one. A field may stand in double quotes,
    inside which a quote is written twice and separators and line ends are text. A quote that does not
    open its field is text too, and so is whatever follows a closing quote. Line feed, carriage return
    and both together end a record; empty lines are no records. -/
def records : List UInt8 → List Record
  | 0xEF :: 0xBB :: 0xBF :: bytes => (Scan.initial 3).records bytes
  | bytes => (Scan.initial 0).records bytes

/-- What makes a file unreadable. -/
inductive Error where
  | unequalLengths (start : Position) (found expected : Nat)
  | invalidText (start : Position) (field byte : Nat)
deriving DecidableEq

def Error.message : Error → String
  | .unequalLengths start found expected =>
    s!"CSV error: record {start.record} (line: {start.line}, byte: {start.byte}): " ++
    s!"found record with {found} fields, but the previous record has {expected} fields"
  | .invalidText start field byte =>
    s!"CSV parse error: record {start.record} (line {start.line}, field: {field}, " ++
    s!"byte: {start.byte}): invalid utf-8: invalid UTF-8 in field {field} near byte index {byte}"

/-- The white space of ASCII other than the vertical tab. -/
def isBlankByte (byte : UInt8) : Bool :=
  byte == 32 || byte == 9 || byte == 10 || byte == 13 || byte == 12

/-- The texts of some fields, without white space at their ends. The first field that is no text is
    the error. -/
def decodeFields (start : Position) (index : Nat) : List (List UInt8) → Except Error (List String)
  | [] => .ok []
  | field :: fields =>
    match Text.decode field with
    | .error byte => .error (.invalidText start index byte)
    | .ok text => return Text.trim text :: (← decodeFields start (index + 1) fields)

/-- The texts of the first record. -/
def header (record : Record) : Except Error (List String) :=
  decodeFields record.start 0 record.fields

/-- The texts of a later record, which has as many fields as the first. White space bytes are removed
    before the fields are looked at as texts. -/
def row (width : Nat) (record : Record) : Except Error (List String) :=
  if record.fields.length = width then
    decodeFields record.start 0 (record.fields.map (Text.strip isBlankByte))
  else .error (.unequalLengths record.start record.fields.length width)

/-- The header and the rows of a file. A file without records has neither. -/
def read (bytes : List UInt8) : Except Error (List String × List (List String)) :=
  match records bytes with
  | [] => .ok ([], [])
  | first :: rest => do
    let names ← header first
    let rows ← rest.mapM (row first.fields.length)
    return (names, rows)

end ExperimentCharts.Csv
