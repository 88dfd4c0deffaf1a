import SqlDump.Codec.Bits
import SqlDump.Codec.Zstd.Error
import SqlDump.Codec.Zstd.Fse
/-!
# Literals of a Zstandard block

The literal bytes of a block are stored as they are, as one repeated byte, or by a prefix code in one
stream or in four. The code is stored in front of the streams, or it is the one of the last block
that had one.
-/

namespace SqlDump.Codec.Zstd

/-- A prefix code as a table: for each way in which `log` bits can go on, the symbol that they start
with and the bits of its word. -/
structure LiteralCode where
  log : Nat
  entries : Array (Nat × Nat)

/-- The longest word of a code that is accepted. -/
def longestWord : Nat := 12

/-- The code of symbols with weights. A symbol of weight `w > 0` has a share of `2 ^ (w - 1)`; that of
the last symbol, which has no weight of its own, fills the whole up to a power of two. -/
def LiteralCode.ofWeights? (weights : Array Nat) : Option LiteralCode :=
  if weights.any (longestWord < ·) then none
  else
    let total := (weights.map fun w => Nat.pow 2 w / 2).foldl (· + ·) 0
    let log := total.log2 + 1
    let rest := Nat.pow 2 log - total
    let all := weights.push (rest.log2 + 1)
    let shortest := all.countP (· == 1)
    if total = 0 ∨ longestWord < log ∨ rest ≠ Nat.pow 2 rest.log2 then none
    else if shortest < 2 ∨ shortest % 2 = 1 then none
    else
      let entries := (List.range log).flatMap fun k =>
        all.toList.zipIdx.flatMap fun (weight, symbol) =>
          if weight = k + 1 then List.replicate (Nat.pow 2 k) (symbol, log - k) else []
      some ⟨log, entries.toArray⟩

/-- Weights that two states write in turn, until the bits of one of them end. -/
def readWeights (table : FseTable) : (steps here other : Nat) → BackwardBits → Array Nat →
    Option (Array Nat)
  | 0, _, _, _, _ => none
  | steps + 1, here, other, bits, weights =>
    let weights := weights.push (table.state here).symbol
    match table.next? here bits with
    | none => some (weights.push (table.state other).symbol)
    | some (next, bits) => readWeights table steps other next bits weights

/-- The most weights that are stored. -/
def mostWeights : Nat := 255

/-- The weights at a place, and the byte behind them. -/
def readWeightsAt? (data : ByteArray) (start stop : Nat) : Option (Array Nat × Nat) := do
  let head ← data[start]?
  let head := head.toNat
  if head < 128 then
    let last := start + 1 + head
    if stop < last then none
    let (distribution, place) ← readDistribution? data (start + 1) last mostWeights 6
    let table := distribution.table
    let bits ← BackwardBits.ofBytes? data place last
    let (first, bits) ← table.start? bits
    let (second, bits) ← table.start? bits
    let weights ← readWeights table mostWeights first second bits #[]
    if mostWeights < weights.size then none
    return (weights, last)
  else
    let count := head - 127
    let last := start + 1 + (count + 1) / 2
    if stop < last then none
    let weights := (Array.range count).map fun i =>
      let byte := (data[start + 1 + i / 2]?.getD 0).toNat
      if i % 2 = 0 then byte / 16 else byte % 16
    return (weights, last)

/-- So many symbols of a stream. -/
def LiteralCode.readSymbols (code : LiteralCode) : (count : Nat) → BackwardBits → ByteArray →
    Option (ByteArray × BackwardBits)
  | 0, bits, out => some (out, bits)
  | count + 1, bits, out => do
    let (symbol, length) ← code.entries[bits.peek code.log]?
    let bits ← bits.skip? length
    code.readSymbols count bits (out.push (UInt8.ofNat symbol))

/-- A stream of so many symbols, which must use all of its bits. -/
def LiteralCode.readStream (code : LiteralCode) (data : ByteArray) (start stop count : Nat)
    (out : ByteArray) : Option ByteArray := do
  let bits ← BackwardBits.ofBytes? data start stop
  let (out, bits) ← code.readSymbols count bits out
  if bits.left = 0 then some out else none

/-- Four streams, of which the first three have their sizes stored. Each has a quarter of the symbols,
rounded up, and the last one has what is left. -/
def LiteralCode.readFourStreams (code : LiteralCode) (data : ByteArray) (start stop count : Nat) :
    Option ByteArray := do
  if stop < start + 10 then none
  let first := start + 6
  let second := first + littleEndian data start 2
  let third := second + littleEndian data (start + 2) 2
  let fourth := third + littleEndian data (start + 4) 2
  let quarter := (count + 3) / 4
  if stop < fourth ∨ count < 3 * quarter then none
  let out ← code.readStream data first second quarter ByteArray.empty
  let out ← code.readStream data second third quarter out
  let out ← code.readStream data third fourth quarter out
  code.readStream data fourth stop (count - 3 * quarter) out

/-- The literals of a block, the code for blocks that follow, and the byte behind the literals. -/
structure Literals where
  bytes : ByteArray
  code : Option LiteralCode
  next : Nat

/-- The size of literals without a code, and the byte behind their header. -/
def plainHeader (data : ByteArray) (start : Nat) : Nat × Nat :=
  let head := littleEndian data start 1
  match head / 4 % 4 with
  | 1 => (littleEndian data start 2 / 16, start + 2)
  | 3 => (littleEndian data start 3 / 16, start + 3)
  | _ => (head / 8, start + 1)

/-- Literals without a code, of which at most `most` are allowed. -/
def readPlainLiterals (data : ByteArray) (start stop most : Nat) (repeated : Bool)
    (code : Option LiteralCode) : Except Error Literals := do
  let (size, place) := plainHeader data start
  let stored := if repeated then 1 else size
  if most < size ∨ stop < place + stored then throw .corrupt
  let bytes :=
    if repeated then ⟨Array.replicate size (data[place]?.getD 0)⟩ else data.extract place (place + size)
  return ⟨bytes, code, place + stored⟩

/-- The header of literals with a code: in which form their streams stand, the size of the literals,
the bytes that are stored for them, and the byte behind the header. -/
structure CodedHeader where
  form : Nat
  size : Nat
  stored : Nat
  next : Nat

/-- The header at a place. -/
def codedHeader (data : ByteArray) (start : Nat) : CodedHeader :=
  let form := littleEndian data start 1 / 4 % 4
  let sizeBits := if form < 2 then 10 else if form = 2 then 14 else 18
  let header := littleEndian data start 5 / 16
  ⟨form, header % Nat.pow 2 sizeBits, header / Nat.pow 2 sizeBits % Nat.pow 2 sizeBits,
    start + (if form < 2 then 3 else if form = 2 then 4 else 5)⟩

/-- The code of literals, and the byte behind it: the one of the last block, or the one whose weights
are stored. -/
def readCode (data : ByteArray) (place last : Nat) :
    Option LiteralCode → Except Error (LiteralCode × Nat)
  | some code => return (code, place)
  | none => do
    let (weights, place) ← orCorrupt (readWeightsAt? data place last)
    let code ← orCorrupt (LiteralCode.ofWeights? weights)
    return (code, place)

/-- Literals with a code, of which at most `most` are allowed. -/
def readCodedLiterals (data : ByteArray) (start stop most : Nat) (code : Option LiteralCode) :
    Except Error Literals := do
  if stop < start + 5 then throw .corrupt
  let header := codedHeader data start
  let last := header.next + header.stored
  if most < header.size then throw .corrupt
  if header.form ≠ 0 ∧ header.size < 6 then throw .wrongLiteralsHeader
  if stop < last then throw .corrupt
  let (code, place) ← readCode data header.next last code
  let bytes ← orCorrupt <|
    if header.form = 0 then code.readStream data place last header.size ByteArray.empty
    else code.readFourStreams data place last header.size
  return ⟨bytes, some code, last⟩

/-- The literals of the block from `start` up to `stop`, of which at most `most` are allowed. The code
is the one of the last block that had one. -/
def readLiterals (data : ByteArray) (start stop most : Nat) (code : Option LiteralCode) :
    Except Error Literals := do
  if stop < start + 2 then throw .corrupt
  match littleEndian data start 1 % 4 with
  | 0 => readPlainLiterals data start stop most false code
  | 1 => readPlainLiterals data start stop most true code
  | 2 => readCodedLiterals data start stop most none
  | _ =>
    if code.isNone then throw .noDictionary
    readCodedLiterals data start stop most code

end SqlDump.Codec.Zstd
