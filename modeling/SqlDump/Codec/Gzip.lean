import SqlDump.Codec.Crc32
import SqlDump.Codec.Inflate
/-!
# Gzip files

A gzip file is a header, deflated data, and a trailer with the check and the length of what was
deflated. Of a file with several members only the first is read.
-/

namespace SqlDump.Codec.Gzip

/-- Why a gzip file cannot be read. -/
inductive Error where
  | badHeader
  | longField
  | endOfFile
  | incompleteData
  | corruptData
  | wrongCheck
deriving DecidableEq, Repr

/-- The text of an error. -/
def Error.message : Error → String
  | .badHeader => "invalid gzip header"
  | .longField => "gzip header field too long"
  | .endOfFile => "unexpected end of file"
  | .incompleteData => "incomplete deflate stream"
  | .corruptData => "corrupt deflate stream"
  | .wrongCheck => "corrupt gzip stream does not have a matching checksum"

/-- The byte at a place of the file, which must exist. -/
def byteAt (data : ByteArray) (i : Nat) : Except Error Nat :=
  match data[i]? with
  | some byte => .ok byte.toNat
  | none => .error .endOfFile

/-- Whether one bit of the flags is set. -/
def hasFlag (flags bit : Nat) : Bool := (flags >>> bit) % 2 == 1

/-- The place behind a field of bytes that ends with a zero. -/
def skipText (data : ByteArray) : (room place : Nat) → Except Error Nat
  | 0, place => do
    if (← byteAt data place) = 0 then return place + 1 else throw .longField
  | room + 1, place => do
    if (← byteAt data place) = 0 then return place + 1 else skipText data room (place + 1)

/-- The most bytes that a name or a comment may have. -/
def longestText : Nat := 65535

/-- The place behind extra bytes, which stand behind their count. -/
def skipExtra (data : ByteArray) (place : Nat) : Except Error Nat := do
  let count := (← byteAt data place) + 256 * (← byteAt data (place + 1))
  let _ ← byteAt data (place + 1 + count)
  return place + 2 + count

/-- The place behind a check of all bytes in front of it. -/
def skipCheck (data : ByteArray) (place : Nat) : Except Error Nat := do
  let stored := (← byteAt data place) + 256 * (← byteAt data (place + 1))
  if stored ≠ (crc32 data 0 place).toNat % 65536 then throw .wrongCheck
  return place + 2

/-- The place behind a part of the header, if its flag is set. -/
def skipPart (flags bit : Nat) (skip : Nat → Except Error Nat) (place : Nat) : Except Error Nat :=
  if hasFlag flags bit then skip place else return place

/-- The place behind the header. Behind ten fixed bytes stand extra bytes with their count, a name, a
comment and a check of the header, each if its flag is set. -/
def readHeader (data : ByteArray) : Except Error Nat := do
  let _ ← byteAt data 9
  let flags := littleEndian data 3 1
  if littleEndian data 0 3 ≠ 0x088B1F ∨ flags ≥ 32 then throw .badHeader
  let place ← skipPart flags 2 (skipExtra data) 10
  let place ← skipPart flags 3 (skipText data longestText) place
  let place ← skipPart flags 4 (skipText data longestText) place
  skipPart flags 1 (skipCheck data) place

/-- The content of a gzip file. -/
def decode (data : ByteArray) : Except Error ByteArray := do
  let start ← readHeader data
  match Inflate.inflate data start with
  | .error .incomplete => throw .incompleteData
  | .error .corrupt => throw .corruptData
  | .ok (out, place) =>
    let _ ← byteAt data (place + 7)
    if littleEndian data place 4 ≠ (crc32 out 0 out.size).toNat
        ∨ littleEndian data (place + 4) 4 ≠ out.size % 0x100000000 then
      throw .wrongCheck
    return out

end SqlDump.Codec.Gzip
