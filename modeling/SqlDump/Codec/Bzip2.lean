import SqlDump.Codec.Bzip2.Block
import SqlDump.Codec.PrefixCode
/-!
# Bzip2 files

A bzip2 file is a header, compressed blocks with a check each, and a check of all blocks. A block
holds the bytes in use, several prefix codes with a selection of one for each fifty symbols, and the
symbols: places in a list of bytes that moves each byte used to its front, and runs of the byte in
front. Of a file with several streams only the first is read.
-/

namespace SqlDump.Codec.Bzip2

/-- Why a bzip2 file cannot be read. -/
inductive Error where
  | endOfFile
  | missingHeader
  | invalidData
deriving DecidableEq, Repr

/-- The text of an error. -/
def Error.message : Error → String
  | .endOfFile => "decompression not finished but EOF reached"
  | .missingHeader => "bzip2: bz2 header missing"
  | .invalidData => "bzip2: invalid data"

abbrev Reader := BitReader Error

def readBit : Reader Nat := highBit .endOfFile

def readBits (n : Nat) : Reader Nat := highBits .endOfFile n

/-- Reads bytes that are known, and stops with an error at the first other one. -/
def expectBytes (error : Error) : List Nat → Reader Unit
  | [] => return
  | byte :: more => do
    if (← readBits 8) ≠ byte then throw error
    expectBytes error more

/-- Reads one value after another. -/
def readMany {α : Type} (reader : Reader α) : Nat → Reader (List α)
  | 0 => return []
  | n + 1 => do
    let first ← reader
    let more ← readMany reader n
    return first :: more

/-- Moves the entry at a place of a list to its front. -/
def moveToFront {α : Type} (list : List α) (place : Nat) : List α :=
  match list[place]? with
  | some x => x :: list.eraseIdx place
  | none => list

/-- The bytes in use: sixteen bits tell which parts of sixteen bytes have any. -/
def readBytesInUse : Reader (List UInt8) := do
  let parts ← readMany readBit 16
  let used ← parts.zipIdx.mapM fun (inUse, part) => do
    if inUse = 0 then return []
    let bits ← readMany readBit 16
    return bits.zipIdx.filterMap fun (bit, i) =>
      if bit = 1 then some (UInt8.ofNat (16 * part + i)) else none
  return used.flatten

/-- The number of ones before the next zero, which must be below a limit. -/
def readUnary : (limit : Nat) → Reader Nat
  | 0 => throw .invalidData
  | limit + 1 => do
    if (← readBit) = 0 then return 0 else return 1 + (← readUnary limit)

/-- No block needs more selections than this. Further ones are ignored. -/
def mostSelections : Nat := 18002

/-- The selected codes: each is given by its place in a list of codes that moves it to the front. -/
def readSelections (codes count : Nat) : Reader (Array Nat) := do
  let places ← readMany (readUnary codes) count
  let step (state : Array Nat × List Nat) (place : Nat) : Array Nat × List Nat :=
    let list := moveToFront state.2 place
    (state.1.push (list.headD 0), list)
  return ((places.take mostSelections).foldl step (#[], List.range codes)).1

/-- The length of the longest word in a code. -/
def longestWord : Nat := 20

/-- The next word length: it is the one before, changed by one in each of several steps. -/
def readLength : (steps length : Nat) → Reader Nat
  | 0, _ => throw .endOfFile
  | steps + 1, length => do
    if length < 1 ∨ longestWord < length then throw .invalidData
    if (← readBit) = 0 then return length
    if (← readBit) = 0 then readLength steps (length + 1) else readLength steps (length - 1)

/-- The word lengths of a code. -/
def readLengths (steps : Nat) : (count length : Nat) → Array Nat → Reader (Array Nat)
  | 0, _, lengths => return lengths
  | count + 1, length, lengths => do
    let length ← readLength steps length
    readLengths steps count length (lengths.push length)

/-- A code with a number of symbols. -/
def readCode (steps symbols : Nat) : Reader PrefixCode := do
  let length ← readBits 5
  return .ofLengths longestWord (← readLengths steps symbols length #[])

/-- What is needed to read the symbols of a block. -/
structure Tables where
  codes : Array PrefixCode
  selections : Array Nat
  /-- The symbol that ends the block. -/
  last : Nat
  /-- The most bytes that the block may have. -/
  room : Nat

/-- Reads the symbol with a number, by the code that is selected for its fifty. -/
def Tables.readSymbol (tables : Tables) (number : Nat) : Reader Nat :=
  match tables.selections[number / 50]? with
  | none => throw .invalidData
  | some selected =>
    match tables.codes[selected]? with
    | none => throw .invalidData
    | some code => code.read readBit .invalidData (longestWord + 1)

/-- Where the reading of a block stands. -/
structure Progress where
  /-- The bytes so far. -/
  column : ByteArray
  /-- The bytes in use, those used last in front. -/
  recent : List UInt8
  /-- The length of a run that is being read. -/
  runLength : Nat
  /-- What the next digit of that run counts, zero outside of a run. -/
  weight : Nat

/-- Ends a run. There must be room for it. -/
def Progress.endRun (p : Progress) (room : Nat) : Reader Progress := do
  if room < p.column.size + p.runLength then throw .invalidData
  return { p with column := pushTimes (p.recent.headD 0) p.runLength p.column, runLength := 0, weight := 0 }

/-- No run has so many digits that a digit counts this much. -/
def weightLimit : Nat := 2 * 1024 * 1024

/-- The symbols of a block up to its end. The symbols 0 and 1 are the digits 1 and 2 of the length of
a run, lowest digit first. -/
def Tables.readColumn (tables : Tables) : (steps number : Nat) → Progress → Reader ByteArray
  | 0, _, _ => throw .endOfFile
  | steps + 1, number, p => do
    let symbol ← tables.readSymbol number
    if symbol ≤ 1 then
      let weight := if p.weight = 0 then 1 else p.weight
      if weightLimit ≤ weight then throw .invalidData
      tables.readColumn steps (number + 1)
        { p with runLength := p.runLength + (symbol + 1) * weight, weight := 2 * weight }
    else
      let p ← p.endRun tables.room
      if symbol = tables.last then return p.column
      else
        if tables.room ≤ p.column.size then throw .invalidData
        let recent := moveToFront p.recent (symbol - 1)
        tables.readColumn steps (number + 1)
          { p with column := p.column.push (recent.headD 0), recent := recent }

/-- One block behind its magic bytes. Gives the output with its bytes and their check. -/
def readBlock (level steps : Nat) (out : ByteArray) : Reader (ByteArray × UInt32) := do
  let stored ← readBits 32
  let flipped ← readBit
  let origin ← readBits 24
  let room := 100000 * level
  if 10 + room < origin then throw .invalidData
  let inUse ← readBytesInUse
  if inUse.isEmpty then throw .invalidData
  let codeCount ← readBits 3
  if codeCount < 2 ∨ 6 < codeCount then throw .invalidData
  let selectionCount ← readBits 15
  if selectionCount < 1 then throw .invalidData
  let selections ← readSelections codeCount selectionCount
  let codes ← readMany (readCode steps (inUse.length + 2)) codeCount
  let tables : Tables := ⟨codes.toArray, selections, inUse.length + 1, room⟩
  let column ← tables.readColumn steps 0 ⟨ByteArray.empty, inUse, 0, 0⟩
  if column.size ≤ origin then throw .invalidData
  let bytes := unsort column origin
  let start := out.size
  match unrun (if flipped = 1 then unflip bytes else bytes) out with
  | none => throw .invalidData
  | some all =>
    let check := all.foldl highCrc32Byte 0xFFFFFFFF start all.size ^^^ 0xFFFFFFFF
    if check.toNat ≠ stored then throw .invalidData
    return (all, check)

/-- The blocks, up to the check of all of them. -/
def readBlocks (level size : Nat) : (steps : Nat) → UInt32 → ByteArray → Reader ByteArray
  | 0, _, _ => throw .endOfFile
  | steps + 1, check, out => do
    let first ← readBits 8
    if first = 0x17 then
      expectBytes .invalidData [0x72, 0x45, 0x38, 0x50, 0x90]
      let stored ← readBits 32
      if check.toNat ≠ stored then throw .invalidData
      return out
    else
      if first ≠ 0x31 then throw .invalidData
      expectBytes .invalidData [0x41, 0x59, 0x26, 0x53, 0x59]
      let (out, blockCheck) ← readBlock level size out
      readBlocks level size steps (((check <<< 1) ||| (check >>> 31)) ^^^ blockCheck) out

/-- A whole stream. -/
def readStream (size : Nat) : Reader ByteArray := do
  expectBytes .missingHeader [0x42, 0x5A, 0x68]
  let level ← readBits 8
  if level < 0x31 ∨ 0x39 < level then throw .missingHeader
  readBlocks (level - 0x30) size size 0 ByteArray.empty

/-- The content of a bzip2 file. -/
def decode (data : ByteArray) : Except Error ByteArray := do
  let (out, _) ← (readStream (8 * data.size + 1)).runFrom data 0
  return out

end SqlDump.Codec.Bzip2
