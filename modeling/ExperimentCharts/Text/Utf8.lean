namespace ExperimentCharts.Text

/-- The bytes of a text. -/
def encode (text : String) : List UInt8 := text.toList.flatMap String.utf8EncodeChar

/-- How many bytes from `start` on are whole characters, looking at no more than `fuel` of them. -/
def validUpTo (bytes : ByteArray) : (fuel start : Nat) → Nat
  | 0, start => start
  | fuel + 1, start =>
    match bytes.utf8DecodeChar? start with
    | some c => validUpTo bytes fuel (start + c.utf8Size)
    | none => start

/-- The text of some bytes, or else the length of their longest start that is a text. -/
def decode (bytes : List UInt8) : Except Nat String :=
  match String.fromUTF8? bytes.toByteArray with
  | some text => .ok text
  | none => .error (validUpTo bytes.toByteArray bytes.length 0)

end ExperimentCharts.Text
