/-!
# Reading bits

A reader of bits keeps its data and counts the bits that it has read. Where the data ends too early
it stops with the error that it is given for that. The bits of a byte come either from the low end,
as in Deflate, or from the high end, as in bzip2.
-/

namespace SqlDump.Codec

/-- A computation on data of which a number of bits have been read. -/
abbrev BitReader (ε : Type) := ReaderT ByteArray (StateT Nat (Except ε))

variable {ε : Type}

/-- The next bit, from the low end of each byte. -/
def lowBit (cut : ε) : BitReader ε Nat := fun data pos =>
  match data[pos / 8]? with
  | none => .error cut
  | some byte => .ok ((byte.toNat >>> (pos % 8)) % 2, pos + 1)

/-- The next bits as a number, the first bit being the lowest. -/
def lowBits (cut : ε) : Nat → BitReader ε Nat
  | 0 => pure 0
  | n + 1 => do
    let first ← lowBit cut
    let more ← lowBits cut n
    return first + 2 * more

/-- The next bit, from the high end of each byte. -/
def highBit (cut : ε) : BitReader ε Nat := fun data pos =>
  match data[pos / 8]? with
  | none => .error cut
  | some byte => .ok ((byte.toNat >>> (7 - pos % 8)) % 2, pos + 1)

/-- The next bits as a number, behind the bits of `front`, the first bit being the highest. -/
def highBitsBehind (cut : ε) : (n front : Nat) → BitReader ε Nat
  | 0, front => pure front
  | n + 1, front => do
    let bit ← highBit cut
    highBitsBehind cut n (2 * front + bit)

/-- The next bits as a number, the first bit being the highest. -/
def highBits (cut : ε) (n : Nat) : BitReader ε Nat := highBitsBehind cut n 0

/-- Skips the rest of a byte that has been read in part. -/
def skipToByte : BitReader ε Unit := fun _ pos => .ok ((), (pos + 7) / 8 * 8)

/-- Runs a reader from a byte of the data, and gives the byte behind the last one that it read. -/
def BitReader.runFrom {α : Type} (reader : BitReader ε α) (data : ByteArray) (start : Nat) :
    Except ε (α × Nat) := do
  let (value, pos) ← reader data (8 * start)
  return (value, (pos + 7) / 8)

/-- A number that is stored in the given count of bytes, the first byte being the lowest. Bytes
behind the end count as zero. -/
def littleEndian (data : ByteArray) (start : Nat) : Nat → Nat
  | 0 => 0
  | n + 1 => (data[start]?.getD 0).toNat + 256 * littleEndian data (start + 1) n

end SqlDump.Codec
