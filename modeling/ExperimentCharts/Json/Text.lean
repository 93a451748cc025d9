import ExperimentCharts.Json.Number
import ExperimentCharts.Text.Utf8

namespace ExperimentCharts.Json.Reader

/-- The next byte of a string. -/
def nextInString : Reader UInt8 := do
  match ← next with
  | some byte => return byte
  | none => fail .endInString

def hexValue? (byte : UInt8) : Option Nat :=
  if 48 ≤ byte ∧ byte ≤ 57 then some (byte.toNat - 48)
  else if 97 ≤ byte ∧ byte ≤ 102 then some (byte.toNat - 87)
  else if 65 ≤ byte ∧ byte ≤ 70 then some (byte.toNat - 55)
  else none

/-- Four hexadecimal digits; all four bytes are read before they are looked into. -/
def hexDigits : Reader Nat := do
  let a ← nextInString
  let b ← nextInString
  let c ← nextInString
  let d ← nextInString
  match hexValue? a, hexValue? b, hexValue? c, hexValue? d with
  | some a, some b, some c, some d => return ((a * 16 + b) * 16 + c) * 16 + d
  | _, _, _, _ => fail .invalidEscape

def isHighSurrogate (code : Nat) : Bool := 0xD800 ≤ code && code ≤ 0xDBFF

def isLowSurrogate (code : Nat) : Bool := 0xDC00 ≤ code && code ≤ 0xDFFF

/-- A byte that has to follow inside a pair of escapes. -/
def expectInPair (byte : UInt8) : Reader Unit := do
  match ← peek with
  | none => fail .endInString
  | some found =>
    skip
    if found ≠ byte then fail .missingSurrogate

/-- The character of an escape after its letter u, which for a surrogate takes a second escape. -/
def codePoint : Reader Char := do
  let code ← hexDigits
  if isLowSurrogate code then fail .loneSurrogate
  else if isHighSurrogate code then
    expectInPair 92
    expectInPair 117
    let low ← hexDigits
    if isLowSurrogate low then
      return .ofNat (0x10000 + (code - 0xD800) * 0x400 + (low - 0xDC00))
    else fail .loneSurrogate
  else return .ofNat code

/-- The byte that a letter stands for after a backslash. -/
def escapedByte? (letter : UInt8) : Option UInt8 :=
  match letter with
  | 34 => some 34
  | 92 => some 92
  | 47 => some 47
  | 98 => some 8
  | 102 => some 12
  | 110 => some 10
  | 114 => some 13
  | 116 => some 9
  | _ => none

/-- The bytes that an escape stands for, after its backslash. -/
def escapedBytes : Reader (List UInt8) := do
  let letter ← nextInString
  match escapedByte? letter with
  | some byte => return [byte]
  | none =>
    if letter = 117 then return String.utf8EncodeChar (← codePoint)
    else fail .invalidEscape

/-- The bytes of a string up to its closing quote, after those already read, in reverse. -/
def stringBytes : (rounds : Nat) → (read : List UInt8) → Reader (List UInt8)
  | 0, _ => fail .endInString
  | rounds + 1, read => do
    let byte ← nextInString
    if byte = 34 then return read.reverse
    else if byte = 92 then stringBytes rounds ((← escapedBytes).reverse ++ read)
    else if byte < 32 then fail .controlCharacter
    else stringBytes rounds (byte :: read)

/-- A string. If its bytes are no text, the place is counted back from the closing quote. -/
def string : Reader String := do
  let bytes ← stringBytes (← rounds) []
  match Text.decode bytes with
  | .ok text => return text
  | .error start =>
    let place := (← get).seen
    throw ⟨.invalidUnicode, some ⟨place.line, place.column - (bytes.length - start)⟩⟩

/-- Goes past a string; escapes are checked for their form only, and bytes not at all. -/
def skipString : (rounds : Nat) → Reader Unit
  | 0 => fail .endInString
  | rounds + 1 => do
    let byte ← nextInString
    if byte = 34 then return
    else if byte = 92 then
      let letter ← nextInString
      if letter = 117 then
        let _ ← hexDigits
        skipString rounds
      else if (escapedByte? letter).isSome then skipString rounds
      else fail .invalidEscape
    else if byte < 32 then fail .controlCharacter
    else skipString rounds

end ExperimentCharts.Json.Reader
