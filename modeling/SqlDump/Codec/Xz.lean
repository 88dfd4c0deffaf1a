import SqlDump.Codec.Bits
import SqlDump.Codec.Crc32
import SqlDump.Codec.Crc64
import SqlDump.Codec.Lzma2
import SqlDump.Codec.Sha256
/-!
# Xz files

An xz file is a header, blocks, an index with the sizes of the blocks, and a footer. A block has a
header with its filters, LZMA2 data, padding up to a multiple of four bytes, and a check. A file with
anything behind the footer is refused, be it another stream.
-/

namespace SqlDump.Codec.Xz

/-- Why an xz file cannot be read. -/
inductive Error where
  | endOfFile
  | notRecognized
  | corrupt
  | unsupported
  | trailingData
deriving DecidableEq, Repr

/-- The text of an error. -/
def Error.message : Error → String
  | .endOfFile => "premature eof"
  | .notRecognized => "stream/file format not recognized"
  | .corrupt => "lzma data error"
  | .unsupported => "invalid options"
  | .trailingData => "corrupt xz stream"

/-- The bytes from `start` on, when the file has so many. -/
def need (data : ByteArray) (start count : Nat) : Except Error Unit :=
  if start + count ≤ data.size then .ok () else .error .endOfFile

/-- A byte of the file, which must exist. -/
def byteAt (data : ByteArray) (i : Nat) : Except Error Nat :=
  match data[i]? with
  | some byte => .ok byte.toNat
  | none => .error .endOfFile

/-- Whether a check of the bytes from `start` up to `stop` is stored at a place. -/
def hasCrc32 (data : ByteArray) (start stop place : Nat) : Bool :=
  littleEndian data place 4 == (crc32 data start stop).toNat

/-- A number in groups of seven bits, at most nine, the lowest first. The last byte has its high bit
clear, and it is not zero unless it is the only one. Gives the place behind it. Where the bytes end
at `stop`, that is the error `cut`. -/
def readNumber (data : ByteArray) (stop : Nat) (cut : Error) :
    (groups place index : Nat) → Except Error (Nat × Nat)
  | 0, _, _ => .error .corrupt
  | groups + 1, place, index => do
    if stop ≤ place then throw cut
    let byte ← byteAt data place
    if byte < 128 then
      if byte = 0 ∧ index ≠ 0 then throw .corrupt
      return (byte, place + 1)
    else
      let (more, place) ← readNumber data stop cut groups (place + 1) (index + 1)
      return (byte - 128 + 128 * more, place)

/-- How a block checks its content: the type of check in the flags of the stream. -/
structure CheckType where
  id : Nat

/-- The bytes that a check has. -/
def CheckType.size (check : CheckType) : Nat :=
  (#[0, 4, 4, 4, 8, 8, 8, 16, 16, 16, 32, 32, 32, 64, 64, 64][check.id]?).getD 0

/-- Whether the check at a place is right. Checks of a type that is not in use are taken as right. -/
def CheckType.holds (check : CheckType) (content data : ByteArray) (place : Nat) : Bool :=
  match check.id with
  | 1 => littleEndian data place 4 == (crc32 content 0 content.size).toNat
  | 4 => littleEndian data place 8 == (crc64 content).toNat
  | 10 => data.extract place (place + 32) == Sha256.hash content
  | _ => true

/-! ## Block headers -/

/-- A filter of a block. Only the last one compresses. -/
inductive Filter where
  | lzma2 (dictionarySize : Nat)
  | delta (distance : Nat)

/-- The dictionary size that a byte stands for. -/
def dictionarySize (byte : Nat) : Nat :=
  if byte = 40 then 0xFFFFFFFF else (2 + byte % 2) * Nat.pow 2 (byte / 2 + 11)

/-- One filter in a header that ends at `stop`. -/
def readFilter (data : ByteArray) (stop place : Nat) : Except Error (Filter × Nat) := do
  let (id, place) ← readNumber data stop .corrupt 9 place 0
  if 0x4000000000000000 ≤ id then throw .corrupt
  let (size, place) ← readNumber data stop .corrupt 9 place 0
  if stop < place + size then throw .corrupt
  let property := littleEndian data place 1
  if id = 0x21 ∧ size = 1 ∧ property ≤ 40 then return (.lzma2 (dictionarySize property), place + 1)
  else if id = 0x03 ∧ size = 1 then return (.delta (property + 1), place + 1)
  else throw .unsupported

/-- The filters in a header that ends at `stop`. -/
def readFilters (data : ByteArray) (stop : Nat) : (count place : Nat) →
    Except Error (List Filter × Nat)
  | 0, place => return ([], place)
  | count + 1, place => do
    let (filter, place) ← readFilter data stop place
    let (more, place) ← readFilters data stop count place
    return (filter :: more, place)

/-- The header of a block. -/
structure BlockHeader where
  size : Nat
  compressed : Option Nat
  uncompressed : Option Nat
  filters : List Filter

/-- A size in a header, if the flag for it is set. -/
def readSize (data : ByteArray) (stop place : Nat) (present : Bool) :
    Except Error (Option Nat × Nat) := do
  if present then
    let (n, place) ← readNumber data stop .corrupt 9 place 0
    return (some n, place)
  else return (none, place)

/-- The header of the block at a place. -/
def readBlockHeader (data : ByteArray) (start : Nat) : Except Error BlockHeader := do
  let size := 4 * ((← byteAt data start) + 1)
  need data start size
  let stop := start + size - 4
  if !hasCrc32 data start stop stop then throw .corrupt
  let flags ← byteAt data (start + 1)
  if (flags / 4) % 16 ≠ 0 then throw .unsupported
  let (compressed, place) ← readSize data stop (start + 2) (flags / 64 % 2 == 1)
  if compressed = some 0 then throw .corrupt
  let (uncompressed, place) ← readSize data stop place (flags / 128 == 1)
  let (filters, place) ← readFilters data stop (flags % 4 + 1) place
  if (data.extract place stop).data.any (· != 0) then throw .unsupported
  return ⟨size, compressed, uncompressed, filters⟩

/-! ## Blocks -/

/-- Each byte is the difference to the one that stands a distance before it. -/
def undoDelta (distance : Nat) (data : ByteArray) : ByteArray :=
  data.foldl (fun out byte =>
    out.push (if distance ≤ out.size then byte + (out[out.size - distance]?.getD 0) else byte))
    ByteArray.empty

/-- Decodes the data at a place by a chain of filters. Gives the place behind it too. -/
def runFilters (data : ByteArray) (place : Nat) : List Filter → Except Error (ByteArray × Nat)
  | [] => .error .unsupported
  | [.lzma2 size] =>
    match Lzma2.decode data place ((max 4096 size + 15) / 16 * 16) with
    | .ok result => .ok result
    | .error .endOfFile => .error .endOfFile
    | .error .corrupt => .error .corrupt
  | .lzma2 _ :: _ :: _ => .error .unsupported
  | .delta distance :: more => do
    let (out, place) ← runFilters data place more
    return (undoDelta distance out, place)

/-- The number of bytes that pad a count to a multiple of four. -/
def paddingOf (count : Nat) : Nat := (4 - count % 4) % 4

/-- Bytes that must be zero. -/
def expectZeros (data : ByteArray) : (count place : Nat) → Except Error Unit
  | 0, _ => return
  | count + 1, place => do
    if (← byteAt data place) ≠ 0 then throw .corrupt
    expectZeros data count (place + 1)

/-- What the index holds of a block: its size without the padding, and the size of its content. -/
structure Record where
  unpadded : Nat
  uncompressed : Nat
deriving DecidableEq

/-- The block at a place: its content, its record, and the place behind it. -/
def readBlock (check : CheckType) (data : ByteArray) (start : Nat) :
    Except Error (ByteArray × Record × Nat) := do
  let header ← readBlockHeader data start
  let (content, place) ← runFilters data (start + header.size) header.filters
  let compressed := place - (start + header.size)
  if header.compressed.any (· != compressed) then throw .corrupt
  if header.uncompressed.any (· != content.size) then throw .corrupt
  let padding := paddingOf compressed
  expectZeros data padding place
  need data (place + padding) check.size
  if !check.holds content data (place + padding) then throw .corrupt
  return (content, ⟨header.size + compressed + check.size, content.size⟩,
    place + padding + check.size)

/-- The blocks up to the index, which starts with a zero. -/
def readBlocks (check : CheckType) (data : ByteArray) : (steps place : Nat) → Array Record → ByteArray →
    Except Error (ByteArray × Array Record × Nat)
  | 0, _, _, _ => .error .endOfFile
  | steps + 1, place, records, out => do
    if (← byteAt data place) = 0 then return (out, records, place)
    let (content, record, place) ← readBlock check data place
    readBlocks check data steps place (records.push record) (out ++ content)

/-! ## Index and footer -/

/-- The records of an index. -/
def readRecords (data : ByteArray) : (count place : Nat) → Except Error (List Record × Nat)
  | 0, place => return ([], place)
  | count + 1, place => do
    let (unpadded, place) ← readNumber data data.size .endOfFile 9 place 0
    let (uncompressed, place) ← readNumber data data.size .endOfFile 9 place 0
    let (more, place) ← readRecords data count place
    return (⟨unpadded, uncompressed⟩ :: more, place)

/-- The index at a place must hold the records of the blocks. Gives the place behind it. -/
def readIndex (records : Array Record) (data : ByteArray) (start : Nat) : Except Error Nat := do
  let (count, place) ← readNumber data data.size .endOfFile 9 (start + 1) 0
  if count ≠ records.size then throw .corrupt
  let (stored, place) ← readRecords data count place
  let padding := paddingOf (place - start)
  expectZeros data padding place
  let place := place + padding
  if stored ≠ records.toList then throw .corrupt
  need data place 4
  if !hasCrc32 data start place place then throw .corrupt
  return place + 4

/-- The flags of a stream at a place: a zero, and the type of its check. -/
def readFlags (data : ByteArray) (place : Nat) : Except Error CheckType := do
  let flags := littleEndian data place 2
  if flags % 256 ≠ 0 ∨ 16 ≤ flags / 256 then throw .unsupported
  return ⟨flags / 256⟩

/-- The footer at a place must repeat the flags and give the size of the index. -/
def readFooter (check : CheckType) (indexSize : Nat) (data : ByteArray) (place : Nat) :
    Except Error Unit := do
  need data place 12
  if littleEndian data (place + 10) 2 ≠ 0x5A59 then throw .corrupt
  if !hasCrc32 data (place + 4) (place + 10) place then throw .corrupt
  let repeated ← readFlags data (place + 8)
  if 4 * (littleEndian data (place + 4) 4 + 1) ≠ indexSize then throw .corrupt
  if repeated.id ≠ check.id then throw .corrupt

/-- The stream at the start of a file: its content, and the place behind it. -/
def readStream (data : ByteArray) : Except Error (ByteArray × Nat) := do
  need data 0 12
  if littleEndian data 0 6 ≠ 0x005A587A37FD then throw .notRecognized
  if !hasCrc32 data 6 8 8 then throw .corrupt
  let check ← readFlags data 6
  let (out, records, indexStart) ← readBlocks check data (data.size + 1) 12 #[] ByteArray.empty
  let place ← readIndex records data indexStart
  readFooter check (place - indexStart) data place
  return (out, place + 12)

/-- The content of an xz file. -/
def decode (data : ByteArray) : Except Error ByteArray := do
  let (out, place) ← readStream data
  if place ≠ data.size then throw .trailingData
  return out

end SqlDump.Codec.Xz
