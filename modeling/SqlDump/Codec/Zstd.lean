import SqlDump.Codec.XxHash
import SqlDump.Codec.Zstd.Literals
import SqlDump.Codec.Zstd.Sequences
/-!
# Zstandard files

A Zstandard file is a sequence of frames. A frame has a header, blocks, and maybe a check. A block
holds bytes as they are, one repeated byte, or literals with sequences. Frames of a special kind are
skipped. All frames are read, one after another.
-/

namespace SqlDump.Codec.Zstd

/-- The bytes from `start` on, when the file has so many. -/
def need (data : ByteArray) (start count : Nat) : Except Error Unit :=
  if start + count ≤ data.size then .ok () else .error .incompleteFrame

/-- The number at the start of a frame. -/
def frameMagic : Nat := 0xFD2FB528

/-- Whether a number starts a frame that is skipped. -/
def isSkippable (magic : Nat) : Bool := magic / 16 == 0x184D2A5

/-- What the header of a frame says. -/
structure FrameHeader where
  windowSize : Nat
  dictionary : Nat
  contentSize : Option Nat
  checked : Bool
  /-- The byte behind the header. -/
  next : Nat

/-- The largest window that is accepted. -/
def largestWindow : Nat := 0x8000001

/-- The largest content of a block. -/
def largestBlock : Nat := 0x20000

/-- Whether a frame is kept as a whole, by the flags of its header. Then its window has the size of its
content. -/
def isSingle (flags : Nat) : Bool := flags / 32 % 2 == 1

/-- The bytes of a header that hold the window. -/
def windowBytes (flags : Nat) : Nat := if isSingle flags then 0 else 1

/-- The bytes of a header that hold the number of a dictionary. -/
def dictionaryBytes (flags : Nat) : Nat := #[0, 1, 2, 4][flags % 4]?.getD 0

/-- The bytes of a header that hold the size of the content. -/
def sizeBytes (flags : Nat) : Nat := #[if isSingle flags then 1 else 0, 2, 4, 8][flags / 64]?.getD 0

/-- The header of the frame at a place, whose number has been read. -/
def readFrameHeader (data : ByteArray) (start : Nat) : Except Error FrameHeader := do
  let flags := littleEndian data (start + 4) 1
  let sizePlace := start + 5 + windowBytes flags + dictionaryBytes flags
  let next := sizePlace + sizeBytes flags
  need data start (next - start)
  if flags / 8 % 2 = 1 then throw .unsupported
  let window := littleEndian data (start + 5) (windowBytes flags)
  if 31 < window / 8 + 10 then throw .windowTooLarge
  let stored := littleEndian data sizePlace (sizeBytes flags)
  let contentSize :=
    if sizeBytes flags = 0 then none
    else some (if sizeBytes flags = 2 then stored + 256 else stored)
  let windowSize :=
    if isSingle flags then contentSize.getD 0
    else Nat.pow 2 (window / 8 + 10) / 8 * (8 + window % 8)
  let dictionary := littleEndian data (start + 5 + windowBytes flags) (dictionaryBytes flags)
  if dictionary ≠ 0 then throw .wrongDictionary
  if largestWindow < windowSize then throw .windowTooLarge
  return ⟨windowSize, dictionary, contentSize, flags / 4 % 2 == 1, next⟩

/-- What the blocks of a frame leave to the next one. The output of the frame starts at `base`. -/
structure FrameState where
  base : Nat
  out : ByteArray
  code : Option LiteralCode
  tables : Option SequenceTables
  recent : Recent

/-- The block from `start` up to `stop` with literals and sequences. Its content is at most `most`
bytes. -/
def readCompressed (data : ByteArray) (start stop most : Nat) (s : FrameState) :
    Except Error FrameState := do
  let literals ← readLiterals data start stop most s.code
  let (count, place) ← readCount data literals.next stop
  if count = 0 then
    if place ≠ stop then throw .corrupt
    return { s with code := literals.code, out := s.out ++ literals.bytes }
  else
    let (tables, place) ← readTables data place stop s.tables
    let (out, recent) ← orCorrupt <|
      execute tables count literals.bytes data place stop s.base s.recent s.out
    return { s with code := literals.code, tables := some tables, recent := recent, out := out }

/-- The content of a block of some kind and size, for which `stored` bytes stand at a place. -/
def readContent (data : ByteArray) (kind size stored place most : Nat) (s : FrameState) :
    Except Error FrameState := do
  if stored = 0 then return s
  else if kind = 2 then readCompressed data place (place + stored) most s
  else if kind = 1 then
    if most < size then throw .corrupt
    return { s with out := s.out ++ ⟨Array.replicate size (data[place]?.getD 0)⟩ }
  else return { s with out := s.out ++ data.extract place (place + stored) }

/-- One block, with a header of three bytes. Gives the byte behind it, and whether it is the last. -/
def readBlock (data : ByteArray) (start most : Nat) (s : FrameState) :
    Except Error (FrameState × Nat × Bool) := do
  need data start 3
  let header := littleEndian data start 3
  let kind := header / 2 % 4
  let size := header / 8
  if kind = 3 then throw .corrupt
  let stored := if kind = 1 then 1 else size
  if most < stored then throw .corrupt
  let place := start + 3
  need data place stored
  let before := s.out.size
  let s ← readContent data kind size stored place most s
  if most < s.out.size - before then throw .corrupt
  return (s, place + stored, header % 2 == 1)

/-- The blocks of a frame up to the last one. -/
def readBlocks (data : ByteArray) (most : Nat) : (steps start : Nat) → FrameState →
    Except Error (ByteArray × Nat)
  | 0, _, _ => throw .incompleteFrame
  | steps + 1, start, s => do
    let (s, place, last) ← readBlock data start most s
    if last then return (s.out, place) else readBlocks data most steps place s

/-- The frame at a place, behind the output so far. Gives the byte behind it too. -/
def readFrame (data : ByteArray) (start : Nat) (out : ByteArray) : Except Error (ByteArray × Nat) := do
  let header ← readFrameHeader data start
  let base := out.size
  let most := min header.windowSize largestBlock
  let (out, place) ← readBlocks data most (data.size + 1) header.next
    ⟨base, out, none, none, Recent.start⟩
  if header.contentSize.any (· != out.size - base) then throw .corrupt
  if header.checked then
    need data place 4
    if littleEndian data place 4 ≠ (XxHash.hash out base out.size).toNat % 0x100000000 then
      throw .wrongCheck
    return (out, place + 4)
  else return (out, place)

/-- Why a frame of fewer than five bytes, at a place, cannot be read. It may be cut, unless its bytes
start no number of a frame. -/
def cutFrameError (data : ByteArray) (start : Nat) : Error :=
  let count := min 4 (data.size - start)
  let unit := Nat.pow 256 count
  let cut := littleEndian data start count
  if cut = frameMagic % unit ∨ isSkippable (0x184D2A50 / unit * unit + cut) then .incompleteFrame
  else .unknownFrame

/-- A frame of any kind at a place. -/
def readAnyFrame (data : ByteArray) (start : Nat) (out : ByteArray) :
    Except Error (ByteArray × Nat) := do
  let magic := littleEndian data start 4
  if data.size < start + 5 then throw (cutFrameError data start)
  else if magic = frameMagic then readFrame data start out
  else if isSkippable magic then
    need data start 8
    let size := littleEndian data (start + 4) 4
    need data (start + 8) size
    return (out, start + 8 + size)
  else throw .unknownFrame

/-- The frames up to the end of the file. -/
def readFrames (data : ByteArray) : (steps start : Nat) → ByteArray → Except Error ByteArray
  | 0, _, _ => throw .incompleteFrame
  | steps + 1, start, out => do
    let (out, place) ← readAnyFrame data start out
    if place = data.size then return out else readFrames data steps place out

/-- The content of a Zstandard file, which has at least one frame. -/
def decode (data : ByteArray) : Except Error ByteArray := do
  if data.size = 0 then throw .incompleteFrame
  readFrames data (data.size + 1) 0 ByteArray.empty

end SqlDump.Codec.Zstd
