import SqlDump.Codec.Bits
import SqlDump.Codec.Zstd.Error
import SqlDump.Codec.Zstd.Fse
/-!
# Sequences of a Zstandard block

A sequence copies some literals and then repeats bytes of the output. Its three numbers are written
by three tables of states: how many literals, how far back, and how many bytes. The last three
distances can be taken again by a short number.
-/

namespace SqlDump.Codec.Zstd

/-- The number of literals of each code: its base and the number of bits to add. -/
def literalLengths : Array (Nat × Nat) :=
  (Array.range 16).map (·, 0) ++ #[
    (16, 1), (18, 1), (20, 1), (22, 1), (24, 2), (28, 2), (32, 3), (40, 3), (48, 4), (64, 6), (128, 7),
    (256, 8), (512, 9), (1024, 10), (2048, 11), (4096, 12), (8192, 13), (16384, 14), (32768, 15),
    (65536, 16)]

/-- The number of repeated bytes of each code: its base and the number of bits to add. -/
def matchLengths : Array (Nat × Nat) :=
  (Array.range 32).map (· + 3, 0) ++ #[
    (35, 1), (37, 1), (39, 1), (41, 1), (43, 2), (47, 2), (51, 3), (59, 3), (67, 4), (83, 4), (99, 5),
    (131, 7), (259, 8), (515, 9), (1027, 10), (2051, 11), (4099, 12), (8195, 13), (16387, 14),
    (32771, 15), (65539, 16)]

/-- The distributions that are used when none is stored. -/
def defaultLiteralLengths : Distribution :=
  ⟨6, #[4, 3, 2, 2, 2, 2, 2, 2, 2, 2, 2, 2, 2, 1, 1, 1, 2, 2, 2, 2, 2, 2, 2, 2, 2, 3, 2, 1, 1, 1, 1, 1,
    -1, -1, -1, -1]⟩

@[inherit_doc defaultLiteralLengths]
def defaultMatchLengths : Distribution :=
  ⟨6, #[1, 4, 3, 2, 2, 2, 2, 2, 2] ++ Array.replicate 37 1 ++ Array.replicate 7 (-1)⟩

@[inherit_doc defaultLiteralLengths]
def defaultDistances : Distribution :=
  ⟨5, #[1, 1, 1, 1, 1, 1, 2, 2, 2, 1, 1, 1, 1, 1, 1, 1, 1, 1, 1, 1, 1, 1, 1, 1, -1, -1, -1, -1, -1]⟩

/-- The tables of the three numbers. -/
structure SequenceTables where
  literalLength : FseTable
  distance : FseTable
  matchLength : FseTable

/-- What may be stored for a number: the largest code, the largest table, and the distribution that
is used when none is stored. -/
structure CodeLimits where
  maxSymbol : Nat
  maxLog : Nat
  usual : Distribution

def literalLimits : CodeLimits := ⟨35, 9, defaultLiteralLengths⟩
def distanceLimits : CodeLimits := ⟨31, 8, defaultDistances⟩
def matchLimits : CodeLimits := ⟨52, 9, defaultMatchLengths⟩

/-- The table for a number: the usual one, a single code, a stored one, or the one of the last block
with sequences. Gives the byte behind it too. -/
def readTable? (limits : CodeLimits) (mode : Nat) (before : Option FseTable) (data : ByteArray)
    (place stop : Nat) : Option (FseTable × Nat) :=
  match mode with
  | 0 => some (limits.usual.table, place)
  | 1 => do
    if stop ≤ place then none
    let code := (← data[place]?).toNat
    if limits.maxSymbol < code then none
    return (.single code, place + 1)
  | 2 => do
    let (distribution, place) ← readDistribution? data place stop limits.maxSymbol limits.maxLog
    return (distribution.table, place)
  | _ => before.map (·, place)

/-- The number of sequences, and the byte behind it. -/
def readCount (data : ByteArray) (start stop : Nat) : Except Error (Nat × Nat) := do
  if stop < start + 1 then throw .wrongSize
  let head := littleEndian data start 1
  if head < 128 then return (head, start + 1)
  else if head = 255 then
    if stop < start + 3 then throw .wrongSize
    return (littleEndian data (start + 1) 2 + 0x7F00, start + 3)
  else
    if stop < start + 2 then throw .wrongSize
    return (256 * (head - 128) + littleEndian data (start + 1) 1, start + 2)

/-- The three tables, and the byte behind them. -/
def readTables (data : ByteArray) (start stop : Nat) (before : Option SequenceTables) :
    Except Error (SequenceTables × Nat) := do
  if stop < start + 1 then throw .wrongSize
  let modes := littleEndian data start 1
  if modes % 4 ≠ 0 then throw .corrupt
  let (literalLength, place) ← orCorrupt <|
    readTable? literalLimits (modes / 64) (before.map (·.literalLength)) data (start + 1) stop
  let (distance, place) ← orCorrupt <|
    readTable? distanceLimits (modes / 16 % 4) (before.map (·.distance)) data place stop
  let (matchLength, place) ← orCorrupt <|
    readTable? matchLimits (modes / 4 % 4) (before.map (·.matchLength)) data place stop
  return (⟨literalLength, distance, matchLength⟩, place)

/-- The last three distances, the last one in front. -/
structure Recent where
  first : Nat
  second : Nat
  third : Nat

/-- The distances before the first sequence of a frame. -/
def Recent.start : Recent := ⟨1, 4, 8⟩

/-- The distance for a number, and the recent distances behind it. Numbers up to three take a recent
distance again, counted from the second one when there are no literals. -/
def Recent.resolve (r : Recent) (number literals : Nat) : Nat × Recent :=
  if 3 < number then (number - 3, ⟨number - 3, r.first, r.second⟩)
  else
    match number + (if literals = 0 then 1 else 0) with
    | 1 => (r.first, r)
    | 2 => (r.second, ⟨r.second, r.first, r.third⟩)
    | 3 => (r.third, ⟨r.third, r.first, r.second⟩)
    | _ => (r.first - 1, ⟨r.first - 1, r.first, r.second⟩)

/-- Repeats bytes of the output. -/
def copyBack (distance : Nat) : Nat → ByteArray → ByteArray
  | 0, out => out
  | n + 1, out => copyBack distance n (out.push (out[out.size - distance]?.getD 0))

/-- Where the decoding of sequences stands. -/
structure SequenceState where
  bits : BackwardBits
  literalState : Nat
  distanceState : Nat
  matchState : Nat
  recent : Recent
  literalPlace : Nat
  out : ByteArray

/-- The base of a code with its added bits. -/
def readAdded (table : Array (Nat × Nat)) (code : Nat) (bits : BackwardBits) :
    Option (Nat × BackwardBits) := do
  let (base, count) ← table[code]?
  let (added, bits) ← bits.read? count
  return (base + added, bits)

/-- One sequence, in a frame whose output starts at `base`. -/
def runSequence (tables : SequenceTables) (literals : ByteArray) (base : Nat) (s : SequenceState) :
    Option SequenceState := do
  let distanceCode := (tables.distance.state s.distanceState).symbol
  let (distanceAdded, bits) ← s.bits.read? distanceCode
  let (count, bits) ← readAdded matchLengths (tables.matchLength.state s.matchState).symbol bits
  let (literalCount, bits) ←
    readAdded literalLengths (tables.literalLength.state s.literalState).symbol bits
  let (distance, recent) := s.recent.resolve (Nat.pow 2 distanceCode + distanceAdded) literalCount
  if literals.size < s.literalPlace + literalCount then none
  let out := s.out ++ literals.extract s.literalPlace (s.literalPlace + literalCount)
  if distance = 0 ∨ out.size - base < distance then none
  return { s with
    bits := bits, recent := recent, literalPlace := s.literalPlace + literalCount
    out := copyBack distance count out }

/-- The states for the next sequence. -/
def advance (tables : SequenceTables) (s : SequenceState) : Option SequenceState := do
  let (literalState, bits) ← tables.literalLength.next? s.literalState s.bits
  let (matchState, bits) ← tables.matchLength.next? s.matchState bits
  let (distanceState, bits) ← tables.distance.next? s.distanceState bits
  return { s with
    bits := bits, literalState := literalState, matchState := matchState
    distanceState := distanceState }

/-- So many sequences. They must use all bits. -/
def runSequences (tables : SequenceTables) (literals : ByteArray) (base : Nat) :
    (count : Nat) → SequenceState → Option SequenceState
  | 0, s => some s
  | 1, s => do
    let s ← runSequence tables literals base s
    if s.bits.left = 0 then some s else none
  | count + 2, s => do
    let s ← runSequence tables literals base s
    runSequences tables literals base (count + 1) (← advance tables s)

/-- Runs the sequences that are stored from `start` up to `stop`, and adds the literals that they
leave. -/
def execute (tables : SequenceTables) (count : Nat) (literals data : ByteArray)
    (start stop base : Nat) (recent : Recent) (out : ByteArray) : Option (ByteArray × Recent) := do
  let bits ← BackwardBits.ofBytes? data start stop
  let (literalState, bits) ← tables.literalLength.start? bits
  let (distanceState, bits) ← tables.distance.start? bits
  let (matchState, bits) ← tables.matchLength.start? bits
  let s ← runSequences tables literals base count
    ⟨bits, literalState, distanceState, matchState, recent, 0, out⟩
  return (s.out ++ literals.extract s.literalPlace literals.size, s.recent)

end SqlDump.Codec.Zstd
