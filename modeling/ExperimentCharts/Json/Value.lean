import ExperimentCharts.Json.Text

namespace ExperimentCharts.Json

/-- A list or an object that is open. -/
inductive Container where
  | list
  | object
deriving DecidableEq

namespace Container

def closing : Container → UInt8
  | .list => 93
  | .object => 125

def unfinished : Container → Fault
  | .list => .endInList
  | .object => .endInObject

def expectedSeparator : Container → Fault
  | .list => .expectedListSeparator
  | .object => .expectedObjectSeparator

end Container

namespace Reader

/-- The letters of a word after its first one. -/
def word : List UInt8 → Reader Unit
  | [] => pure ()
  | letter :: letters => do
    match ← next with
    | none => fail .endInValue
    | some byte => if byte = letter then word letters else fail .expectedWord

/-- The letters after the first one of `null`, `true` and `false`. -/
def nullRest : List UInt8 := [117, 108, 108]
def trueRest : List UInt8 := [114, 117, 101]
def falseRest : List UInt8 := [97, 108, 115, 101]

/-- Looks at the first byte of a value. -/
def peekValue : Reader UInt8 := do
  match ← peekToken with
  | some byte => return byte
  | none => fail .endInValue

/-- Reads a value of any kind as far as a message shows it. -/
def unexpected : Reader Unexpected := do
  match ← peek with
  | some 110 => skip; word nullRest; return .null
  | some 116 => skip; word trueRest; return .boolean true
  | some 102 => skip; word falseRest; return .boolean false
  | some 45 => skip; return (← number true).unexpected
  | some 34 => skip; return .text (← string)
  | some 91 => return .list
  | some 123 => return .object
  | some byte => if isDigit byte then return (← number false).unexpected else fail .expectedValue
  | none => fail .expectedValue

/-- Fails over what stands in place of the expected kind of value. -/
def wrongKind {α : Type} (expected : String) : Reader α := do
  fail (.invalidType (← unexpected) expected)

def float : Reader Binary64 := do
  let byte ← peekValue
  if byte = 45 then skip; return (← number true).toBinary64
  else if isDigit byte then return (← number false).toBinary64
  else wrongKind "f64"

def boolean : Reader Bool := do
  let byte ← peekValue
  if byte = 116 then skip; word trueRest; return true
  else if byte = 102 then skip; word falseRest; return false
  else wrongKind "a boolean"

def text : Reader String := do
  if (← peekValue) = 34 then skip; string
  else wrongKind "a string"

def colon : Reader Unit := do
  match ← peekToken with
  | none => fail .endInObject
  | some byte => if byte = 58 then skip else fail .expectedColon

/-- Goes past a value, or past the opening of a list or object, which is given back. -/
def skipToken : Reader (Option Container) := do
  let byte ← peekValue
  if byte = 110 then skip; word nullRest; return none
  else if byte = 116 then skip; word trueRest; return none
  else if byte = 102 then skip; word falseRest; return none
  else if byte = 45 then skip; skipNumber; return none
  else if isDigit byte then skipNumber; return none
  else if byte = 34 then skip; skipString (← rounds); return none
  else if byte = 91 then skip; return some .list
  else if byte = 123 then skip; return some .object
  else fail .expectedValue

/-- Goes past all that closes after a value, and past a comma if a value went before it. What is left
    open expects another value. -/
def closeContainers (afterValue : Bool) : List Container → Reader (List Container)
  | [] => return []
  | top :: rest => do
    match ← peekToken with
    | none => fail top.unfinished
    | some byte =>
      if byte = 44 ∧ afterValue then skip; return top :: rest
      else if byte = top.closing then skip; closeContainers true rest
      else if afterValue then fail top.expectedSeparator
      else return top :: rest

/-- Goes past a key and its colon. -/
def skipKey : Reader Unit := do
  match ← peekToken with
  | none => fail .endInObject
  | some byte =>
    if byte = 34 then skip; skipString (← rounds); colon
    else fail .keyNotString

/-- Goes past a value inside the open containers, and then past the rest of them. -/
def skipWithin : (rounds : Nat) → List Container → Reader Unit
  | 0, _ => fail .endInValue
  | rounds + 1, containers => do
    let opened ← skipToken
    match ← closeContainers opened.isNone (opened.toList ++ containers) with
    | [] => return
    | top :: rest =>
      if top = .object then skipKey
      skipWithin rounds (top :: rest)

/-- Goes past any value. -/
def skipValue : Reader Unit := do
  skipWithin (← rounds) []

/-- Whether another element of a list follows; before all but the first there is a comma. -/
def another (first : Bool) : Reader Bool := do
  match ← peekToken with
  | none => fail .endInList
  | some byte =>
    if byte = 93 then return false
    else if first then return true
    else if byte ≠ 44 then fail .expectedListSeparator
    else
      skip
      match ← peekToken with
      | some 93 => fail .trailingComma
      | none => fail .endInValue
      | _ => return true

/-- The closing of a list. -/
def endList : Reader Unit := do
  match ← peekToken with
  | some 93 => skip
  | some 44 =>
    skip
    match ← peekToken with
    | some 93 => fail .trailingComma
    | _ => fail .trailingCharacters
  | some _ => fail .trailingCharacters
  | none => fail .endInList

/-- The closing of an object. -/
def endObject : Reader Unit := do
  match ← peekToken with
  | some 125 => skip
  | some 44 => fail .trailingComma
  | some _ => fail .trailingCharacters
  | none => fail .endInObject

/-- The content of a list or object and its closing. The closing is read even after a failure, and
    gives a failure without a place its own. -/
def enclosed {α : Type} (content : Reader α) (closing : Reader Unit) : Reader α := fun cursor =>
  match content cursor.step with
  | .ok value cursor =>
    match closing cursor with
    | .ok _ cursor => .ok value cursor
    | .error failure cursor => .error (failure.placed cursor) cursor
  | .error failure cursor =>
    match closing cursor with
    | .ok _ cursor => .error (failure.placed cursor) cursor
    | .error _ cursor => .error (failure.placed cursor) cursor

/-- The elements of a list. -/
def elements {α : Type} (item : Reader α) : (rounds : Nat) → (first : Bool) → Reader (List α)
  | 0, _ => fail .endInList
  | rounds + 1, first => do
    if ← another first then
      let value ← item
      return value :: (← elements item rounds false)
    else return []

/-- A list of values. -/
def list {α : Type} (item : Reader α) : Reader (List α) := do
  if (← peekValue) = 91 then enclosed (do elements item (← rounds) true) endList
  else wrongKind "a sequence"

/-- A field of a record: its key, whether it may be missing, and how it is read into the record. -/
structure Field (α : Type) where
  key : String
  optional : Bool
  read : α → Reader α

/-- The form of a record. -/
structure Form (α : Type) where
  name : String
  /-- The record before any field is read. -/
  blank : α
  fields : List (Field α)

/-- The fields of a record in their order, as elements of a list. The list may end before optional
    fields. -/
def fieldsInOrder {α : Type} (form : Form α) (index : Nat) (value : α) :
    List (Field α) → Reader α
  | [] => return value
  | field :: fields => do
    if ← another (index == 0) then
      fieldsInOrder form (index + 1) (← field.read value) fields
    else if field.optional then fieldsInOrder form (index + 1) value fields
    else failUnplaced (.invalidLength index form.name form.fields.length)

/-- The first field of a record that has to be there and is not among the given keys. -/
def firstMissing? {α : Type} (form : Form α) (keys : List String) : Option String :=
  (form.fields.find? fun field => !field.optional && !keys.contains field.key).map Field.key

/-- The key of the next field of an object, or nothing at the end of the object. -/
def nextKey? (first : Bool) : Reader (Option String) := do
  match ← peekToken with
  | none => fail .endInObject
  | some 125 => return none
  | some byte =>
    let byte ← if first then pure byte
      else if byte ≠ 44 then fail .expectedObjectSeparator
      else
        skip
        match ← peekToken with
        | some 125 => fail .trailingComma
        | none => fail .endInValue
        | some byte => pure byte
    if byte = 34 then skip; return some (← string)
    else fail .keyNotString

/-- The fields of an object in any order, after those with the given keys. -/
def fieldsByKey {α : Type} (form : Form α) :
    (rounds : Nat) → (keys : List String) → (first : Bool) → (value : α) → Reader α
  | 0, _, _, _ => fail .endInObject
  | rounds + 1, keys, first, value => do
    match ← nextKey? first with
    | none =>
      match firstMissing? form keys with
      | some key => failUnplaced (.missingField key)
      | none => return value
    | some key =>
      match form.fields.find? fun field => field.key == key with
      | some field =>
        if keys.contains key then failUnplaced (.duplicateField key)
        else
          colon
          let value ← field.read value
          fieldsByKey form rounds (key :: keys) false value
      | none =>
        colon
        skipValue
        fieldsByKey form rounds keys false value

/-- A record, as an object or as a list of its fields. Unknown fields of an object are skipped, whatever
    they hold and however deep they are. -/
def record {α : Type} (form : Form α) : Reader α := do
  let byte ← peekValue
  if byte = 91 then enclosed (fieldsInOrder form 0 form.blank form.fields) endList
  else if byte = 123 then
    enclosed (do fieldsByKey form (← rounds) [] true form.blank) endObject
  else wrongKind s!"struct {form.name}"

/-- A whole file: one value, with nothing but white space after it. -/
def file {α : Type} (value : Reader α) : Reader α := do
  let result ← value
  match ← peekToken with
  | none => return result
  | some _ => fail .trailingCharacters

end Reader

end ExperimentCharts.Json
