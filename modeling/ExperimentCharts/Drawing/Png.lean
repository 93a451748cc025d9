import ExperimentCharts.Drawing.Shape

namespace ExperimentCharts

namespace Png

/-- The bytes of a number, the highest first. -/
def bigEndian (n : UInt32) : List UInt8 :=
  [(n >>> 24).toUInt8, (n >>> 16).toUInt8, (n >>> 8).toUInt8, n.toUInt8]

/-- One bit of a cyclic redundancy check. -/
def checkBit (check : UInt32) : UInt32 :=
  if check &&& 1 = 1 then (check >>> 1) ^^^ 0xEDB88320 else check >>> 1

/-- One byte of a cyclic redundancy check. -/
def checkByte (check : UInt32) (byte : UInt8) : UInt32 :=
  (List.range 8).foldl (fun check _ => checkBit check) (check ^^^ byte.toUInt32)

/-- The cyclic redundancy check of some bytes. -/
def check (bytes : ByteArray) : UInt32 :=
  bytes.foldl checkByte 0xFFFFFFFF ^^^ 0xFFFFFFFF

/-- The sums that end a stream: of the bytes, and of the sums so far, modulo a prime. -/
def streamSum (bytes : ByteArray) : UInt32 :=
  let (low, high) := bytes.foldl (fun (sums : UInt32 × UInt32) byte =>
    let low := (sums.1 + byte.toUInt32) % 65521
    (low, (sums.2 + low) % 65521)) (1, 0)
  (high <<< 16) ||| low

/-- The most bytes that one block of a stream can hold. -/
def blockLimit : Nat := 65535

/-- One block of a stream, holding its bytes as they are. -/
def block (last : Bool) (bytes : ByteArray) : ByteArray :=
  let size := bytes.size.toUInt16
  let flipped := size ^^^ 0xFFFF
  [if last then 1 else 0, size.toUInt8, (size >>> 8).toUInt8, flipped.toUInt8,
    (flipped >>> 8).toUInt8].toByteArray ++ bytes

/-- A stream of bytes in blocks. -/
def stream (bytes : ByteArray) : ByteArray :=
  let count := max 1 ((bytes.size + blockLimit - 1) / blockLimit)
  let blocks := (List.range count).foldl (fun (out : ByteArray) (index : Nat) =>
    out ++ block (index + 1 == count)
      (bytes.extract (index * blockLimit) ((index + 1) * blockLimit)))
    [0x78, 0x01].toByteArray
  blocks ++ (bigEndian (streamSum bytes)).toByteArray

/-- A part of the file: its length, its name, its content and their check. -/
def chunk (name : String) (content : ByteArray) : ByteArray :=
  let named := name.toUTF8 ++ content
  (bigEndian content.size.toUInt32).toByteArray ++ named ++ (bigEndian (check named)).toByteArray

/-- The bytes with which every file begins. -/
def signature : List UInt8 := [0x89, 0x50, 0x4E, 0x47, 0x0D, 0x0A, 0x1A, 0x0A]

/-- The rows of a drawing, each after a byte that says that nothing is predicted. -/
def rows (drawing : Drawing) : ByteArray :=
  (List.range drawing.height).foldl (fun (out : ByteArray) (y : Nat) =>
    let drawing := drawing.onRow y
    (List.range drawing.width).foldl (fun (out : ByteArray) (x : Nat) =>
      let color := drawing.colorAt ⟨x, y⟩
      ((out.push color.red.toUInt8).push color.green.toUInt8).push color.blue.toUInt8)
      (out.push 0))
    ByteArray.empty

end Png

/-- A drawing as the content of a file in the PNG format: eight bits per colour, rows from top to
    bottom, nothing compressed. -/
def Drawing.toPng (drawing : Drawing) : ByteArray :=
  let header := Png.bigEndian drawing.width.toUInt32 ++ Png.bigEndian drawing.height.toUInt32 ++
    [8, 2, 0, 0, 0]
  Png.signature.toByteArray ++ Png.chunk "IHDR" header.toByteArray ++
    Png.chunk "IDAT" (Png.stream (Png.rows drawing)) ++ Png.chunk "IEND" ByteArray.empty

end ExperimentCharts
