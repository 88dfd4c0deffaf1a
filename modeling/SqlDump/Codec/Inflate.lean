import SqlDump.Codec.PrefixCode
/-!
# Deflate

Compressed data is a sequence of blocks. A block holds its bytes as they are, or symbols of two
prefix codes: literal bytes and lengths in the one, distances in the other. A length with a distance
repeats bytes of the output. The codes of a block are the fixed ones, or they are stored in the
block.
-/

namespace SqlDump.Codec.Inflate

/-- Why data cannot be inflated: it ends too early, or it breaks the rules of the format. -/
inductive Error where
  | incomplete
  | corrupt
deriving DecidableEq, Repr

abbrev Reader := BitReader Error

/-- The length of the longest word in a code. -/
def longest : Nat := 15

/-- A code that was stored. It must be full, unless it has a single word or none. -/
def codeOfLengths (lengths : Array Nat) : Reader PrefixCode := do
  let code := PrefixCode.ofLengths longest lengths
  if code.covered longest ≠ Nat.pow 2 longest ∧ 1 < code.used then throw .corrupt
  return code

def readSymbol (code : PrefixCode) : Reader Nat := code.read (lowBit .incomplete) .corrupt longest

/-- The shortest length of each length symbol and the number of its extra bits. -/
def lengthTable : Array (Nat × Nat) := #[
  (3, 0), (4, 0), (5, 0), (6, 0), (7, 0), (8, 0), (9, 0), (10, 0), (11, 1), (13, 1), (15, 1), (17, 1),
  (19, 2), (23, 2), (27, 2), (31, 2), (35, 3), (43, 3), (51, 3), (59, 3), (67, 4), (83, 4), (99, 4),
  (115, 4), (131, 5), (163, 5), (195, 5), (227, 5), (258, 0)]

/-- The shortest distance of each distance symbol and the number of its extra bits. -/
def distanceTable : Array (Nat × Nat) := #[
  (1, 0), (2, 0), (3, 0), (4, 0), (5, 1), (7, 1), (9, 2), (13, 2), (17, 3), (25, 3), (33, 4), (49, 4),
  (65, 5), (97, 5), (129, 6), (193, 6), (257, 7), (385, 7), (513, 8), (769, 8), (1025, 9), (1537, 9),
  (2049, 10), (3073, 10), (4097, 11), (6145, 11), (8193, 12), (12289, 12), (16385, 13), (24577, 13)]

/-- A base with its extra bits. A symbol behind the end of its table is corrupt. -/
def readExtra (table : Array (Nat × Nat)) (symbol : Nat) : Reader Nat :=
  match table[symbol]? with
  | some (base, extra) => return base + (← lowBits .incomplete extra)
  | none => throw .corrupt

/-- Repeats bytes of the output. The window in front of the first byte is filled with zeros. -/
def repeatBytes (distance : Nat) : Nat → ByteArray → ByteArray
  | 0, out => out
  | n + 1, out =>
    let byte := if distance ≤ out.size then out[out.size - distance]?.getD 0 else 0
    repeatBytes distance n (out.push byte)

/-- The symbols of a block up to its end. At most `steps` symbols are read. -/
def readSymbols (literals distances : PrefixCode) : (steps : Nat) → ByteArray → Reader ByteArray
  | 0, _ => throw .incomplete
  | steps + 1, out => do
    let symbol ← readSymbol literals
    if symbol < 256 then readSymbols literals distances steps (out.push (UInt8.ofNat symbol))
    else if symbol = 256 then return out
    else
      let length ← readExtra lengthTable (symbol - 257)
      let distance ← readExtra distanceTable (← readSymbol distances)
      readSymbols literals distances steps (repeatBytes distance length out)

/-- The code of literals and lengths in a block with fixed codes. -/
def fixedLiterals : PrefixCode :=
  .ofLengths longest
    (.replicate 144 8 ++ .replicate 112 9 ++ .replicate 24 7 ++ .replicate 8 8)

/-- The code of distances in a block with fixed codes. -/
def fixedDistances : PrefixCode := .ofLengths longest (.replicate 32 5)

/-- The order in which the word lengths of the code of word lengths are stored. -/
def lengthOrder : Array Nat := #[16, 17, 18, 0, 8, 7, 9, 6, 10, 5, 11, 4, 12, 3, 13, 2, 14, 1, 15]

/-- The word lengths of the code of word lengths. -/
def readLengthLengths : (count index : Nat) → Array Nat → Reader (Array Nat)
  | 0, _, lengths => return lengths
  | count + 1, index, lengths => do
    let length ← lowBits .incomplete 3
    readLengthLengths count (index + 1) (lengths.setIfInBounds (lengthOrder[index]?.getD 0) length)

/-- Word lengths until there are `total`. Three symbols stand for repetitions: of the length before,
and of length zero. -/
def readLengths (code : PrefixCode) (total : Nat) : (steps : Nat) → Array Nat → Reader (Array Nat)
  | 0, _ => throw .corrupt
  | steps + 1, lengths => do
    if lengths.size = total then return lengths
    else if total < lengths.size then throw .corrupt
    else
      let symbol ← readSymbol code
      if symbol < 16 then readLengths code total steps (lengths.push symbol)
      else if symbol = 16 then
        match lengths.back? with
        | none => throw .corrupt
        | some last =>
          let count := 3 + (← lowBits .incomplete 2)
          readLengths code total steps (lengths ++ Array.replicate count last)
      else
        let count ← if symbol = 17 then (3 + ·) <$> lowBits .incomplete 3
          else (11 + ·) <$> lowBits .incomplete 7
        readLengths code total steps (lengths ++ Array.replicate count 0)

/-- The two codes that are stored in a block. -/
def readCodes : Reader (PrefixCode × PrefixCode) := do
  let literalCount := 257 + (← lowBits .incomplete 5)
  let distanceCount := 1 + (← lowBits .incomplete 5)
  let lengthCount := 4 + (← lowBits .incomplete 4)
  if 286 < literalCount ∨ 30 < distanceCount then throw .corrupt
  let lengthLengths ← readLengthLengths lengthCount 0 (.replicate 19 0)
  let lengthCode ← codeOfLengths lengthLengths
  let total := literalCount + distanceCount
  let lengths ← readLengths lengthCode total (total + 1) #[]
  let distances ← codeOfLengths (lengths.extract literalCount total)
  let literals ← codeOfLengths (lengths.extract 0 literalCount)
  return (literals, distances)

/-- Bytes that are stored as they are. -/
def readStored : (count : Nat) → ByteArray → Reader ByteArray
  | 0, out => return out
  | count + 1, out => do
    let byte ← lowBits .incomplete 8
    readStored count (out.push (UInt8.ofNat byte))

/-- One block. Its symbols have at least one bit each, so that `steps` is as large as the data. -/
def readBlock (kind steps : Nat) (out : ByteArray) : Reader ByteArray := do
  if kind = 0 then
    skipToByte
    let size ← lowBits .incomplete 16
    let complement ← lowBits .incomplete 16
    if size + complement ≠ 0xFFFF then throw .corrupt
    readStored size out
  else if kind = 1 then readSymbols fixedLiterals fixedDistances steps out
  else if kind = 2 then
    let (literals, distances) ← readCodes
    readSymbols literals distances steps out
  else throw .corrupt

/-- The blocks up to the one that is marked as the last. -/
def readBlocks (size : Nat) : (steps : Nat) → ByteArray → Reader ByteArray
  | 0, _ => throw .incomplete
  | steps + 1, out => do
    let last ← lowBit .incomplete
    let kind ← lowBits .incomplete 2
    let out ← readBlock kind size out
    if last = 1 then return out else readBlocks size steps out

/-- Inflates the data from a byte on. Gives the output and the byte behind the last block. -/
def inflate (data : ByteArray) (start : Nat) : Except Error (ByteArray × Nat) :=
  let size := 8 * data.size + 1
  (readBlocks size size ByteArray.empty).runFrom data start

end SqlDump.Codec.Inflate
