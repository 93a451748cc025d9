import ExperimentCharts.Binary64.Text
import ExperimentCharts.Text.Quoted

namespace ExperimentCharts.Json

/-- A value found where another kind was expected. -/
inductive Unexpected where
  | null
  | boolean (value : Bool)
  | integer (value : Int)
  | float (value : Binary64)
  | text (value : String)
  | list
  | object

def Unexpected.describe : Unexpected → String
  | .null => "null"
  | .boolean true => "boolean `true`"
  | .boolean false => "boolean `false`"
  | .integer value => s!"integer `{value}`"
  | .float value => s!"floating point `{value.render .quoted}`"
  | .text value => s!"string {Text.quote value}"
  | .list => "sequence"
  | .object => "map"

/-- What is wrong at a place. -/
inductive Fault where
  | endInValue
  | endInList
  | endInObject
  | endInString
  | expectedWord
  | expectedValue
  | expectedListSeparator
  | expectedObjectSeparator
  | expectedColon
  | keyNotString
  | invalidNumber
  | numberOutOfRange
  | invalidEscape
  | loneSurrogate
  | missingSurrogate
  | controlCharacter
  | invalidUnicode
  | trailingComma
  | trailingCharacters
  | invalidType (found : Unexpected) (expected : String)
  | invalidLength (found : Nat) (name : String) (expected : Nat)
  | duplicateField (key : String)
  | missingField (key : String)

def Fault.message : Fault → String
  | .endInValue => "EOF while parsing a value"
  | .endInList => "EOF while parsing a list"
  | .endInObject => "EOF while parsing an object"
  | .endInString => "EOF while parsing a string"
  | .expectedWord => "expected ident"
  | .expectedValue => "expected value"
  | .expectedListSeparator => "expected `,` or `]`"
  | .expectedObjectSeparator => "expected `,` or `\x7d`"
  | .expectedColon => "expected `:`"
  | .keyNotString => "key must be a string"
  | .invalidNumber => "invalid number"
  | .numberOutOfRange => "number out of range"
  | .invalidEscape => "invalid escape"
  | .loneSurrogate => "lone leading surrogate in hex escape"
  | .missingSurrogate => "unexpected end of hex escape"
  | .controlCharacter => "control character (\\u0000-\\u001F) found while parsing a string"
  | .invalidUnicode => "invalid unicode code point"
  | .trailingComma => "trailing comma"
  | .trailingCharacters => "trailing characters"
  | .invalidType found expected => s!"invalid type: {found.describe}, expected {expected}"
  | .invalidLength found name expected =>
    s!"invalid length {found}, expected struct {name} with {expected} elements"
  | .duplicateField key => s!"duplicate field `{key}`"
  | .missingField key => s!"missing field `{key}`"

/-- A line, counted from one, and the number of bytes read in it. -/
structure Place where
  line : Nat
  column : Nat
deriving DecidableEq

namespace Place

/-- The place after one more byte. -/
def after (place : Place) (byte : UInt8) : Place :=
  if byte = 10 then ⟨place.line + 1, 0⟩ else ⟨place.line, place.column + 1⟩

end Place

/-- The bytes to come, the place after those before them, and whether the next byte was looked at. -/
structure Cursor where
  rest : List UInt8
  place : Place
  looked : Bool

namespace Cursor

def start (bytes : List UInt8) : Cursor := ⟨bytes, ⟨1, 0⟩, false⟩

/-- The place after all bytes read or looked at. -/
def seen (cursor : Cursor) : Place :=
  match cursor.looked, cursor.rest with
  | true, byte :: _ => cursor.place.after byte
  | _, _ => cursor.place

/-- The cursor after the next byte. -/
def step (cursor : Cursor) : Cursor :=
  match cursor.rest with
  | [] => cursor
  | byte :: rest => ⟨rest, cursor.place.after byte, false⟩

/-- The cursor after `count` bytes. -/
def steps (cursor : Cursor) : (count : Nat) → Cursor
  | 0 => cursor
  | count + 1 => cursor.step.steps count

/-- The place after some bytes. -/
def placeAfter (place : Place) (bytes : List UInt8) : Place := bytes.foldl Place.after place

/-- The bytes to come that satisfy `p`, up to the first that does not, and the cursor looking at that
    one. -/
def span (p : UInt8 → Bool) (cursor : Cursor) : List UInt8 × Cursor :=
  let taken := cursor.rest.takeWhile p
  (taken, ⟨cursor.rest.dropWhile p, placeAfter cursor.place taken, true⟩)

end Cursor

/-- A fault with its place. Some faults of a whole list or object get theirs only when it is left. -/
structure Failure where
  fault : Fault
  place : Option Place

/-- The failure, placed at the cursor unless it has a place. -/
def Failure.placed (failure : Failure) (cursor : Cursor) : Failure :=
  { failure with place := some (failure.place.getD cursor.seen) }

/-- Reads a value from the bytes at the cursor, or fails. -/
abbrev Reader := EStateM Failure Cursor

namespace Reader

/-- Fails at the bytes read so far. -/
def fail {α : Type} (fault : Fault) : Reader α := do
  throw ⟨fault, some (← get).seen⟩

/-- Fails without a place. -/
def failUnplaced {α : Type} (fault : Fault) : Reader α := throw ⟨fault, none⟩

/-- The next byte, looked at only. -/
def peek : Reader (Option UInt8) :=
  modifyGet fun cursor =>
    match cursor.rest with
    | [] => (none, cursor)
    | byte :: _ => (some byte, { cursor with looked := true })

/-- Goes past the next byte. -/
def skip : Reader Unit := modify Cursor.step

/-- The next byte. -/
def next : Reader (Option UInt8) := do
  let byte ← peek
  skip
  return byte

/-- The bytes to come that satisfy `p`. -/
def takeWhile (p : UInt8 → Bool) : Reader (List UInt8) := modifyGet (Cursor.span p)

/-- JSON's own white space. -/
def isBlank (byte : UInt8) : Bool := byte == 32 || byte == 10 || byte == 9 || byte == 13

/-- Goes past white space and looks at the byte after it. -/
def peekToken : Reader (Option UInt8) := do
  let _ ← takeWhile isBlank
  peek

/-- As many rounds as a loop that reads at least one byte per round can take. -/
def rounds : Reader Nat := return (← get).rest.length + 1

end Reader

end ExperimentCharts.Json
