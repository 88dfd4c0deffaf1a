/-!
# Bits of Zstandard streams

Some streams of a Zstandard block are read from their end. The highest bit that is set in the last
byte marks the end, and numbers are read from there downwards, each with its highest bit first.
-/

namespace SqlDump.Codec.Zstd

/-- A stream that is read backwards. It starts at a byte of the data and has so many bits left. -/
structure BackwardBits where
  data : ByteArray
  start : Nat
  left : Nat

/-- The stream from one byte up to another, if it has an end mark. -/
def BackwardBits.ofBytes? (data : ByteArray) (start stop : Nat) : Option BackwardBits :=
  let last := if start < stop then (data[stop - 1]?.getD 0).toNat else 0
  if last = 0 then none else some ⟨data, start, 8 * (stop - 1 - start) + last.log2⟩

/-- The bits of a number below the place `place` of a stream, behind the bits of `front`. Bits before
the start of the stream are zero. -/
def bitsBelow (data : ByteArray) (start : Nat) : (count place front : Nat) → Nat
  | 0, _, front => front
  | count + 1, 0, front => bitsBelow data start count 0 (2 * front)
  | count + 1, place + 1, front =>
    let byte := (data[start + place / 8]?.getD 0).toNat
    bitsBelow data start count place (2 * front + (byte >>> (place % 8)) % 2)

/-- The next bits, without reading them. Bits that the stream does not have are zero. -/
def BackwardBits.peek (b : BackwardBits) (count : Nat) : Nat := bitsBelow b.data b.start count b.left 0

/-- Reads past some bits, if there are so many. -/
def BackwardBits.skip? (b : BackwardBits) (count : Nat) : Option BackwardBits :=
  if count ≤ b.left then some { b with left := b.left - count } else none

/-- Reads a number, if there are so many bits. -/
def BackwardBits.read? (b : BackwardBits) (count : Nat) : Option (Nat × BackwardBits) :=
  (b.skip? count).map fun rest => (b.peek count, rest)

/-- A number of up to 24 bits at a bit of the data, the first bit being the lowest. Bits from the byte
`stop` on are zero. -/
def forwardBits (data : ByteArray) (stop bitPlace count : Nat) : Nat :=
  let byte (k : Nat) : Nat :=
    let i := bitPlace / 8 + k
    if i < stop then (data[i]?.getD 0).toNat else 0
  let word := byte 0 + 256 * (byte 1 + 256 * (byte 2 + 256 * byte 3))
  (word >>> (bitPlace % 8)) % Nat.pow 2 count

end SqlDump.Codec.Zstd
