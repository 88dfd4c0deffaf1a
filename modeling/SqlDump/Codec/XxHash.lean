import SqlDump.Codec.Bits
/-!
# The hash XXH64

A fast hash of 64 bits. Blocks of 32 bytes go into four lanes, and the bytes that are left are mixed
in at the end. The seed is zero.
-/

namespace SqlDump.Codec.XxHash

def prime1 : UInt64 := 0x9E3779B185EBCA87
def prime2 : UInt64 := 0xC2B2AE3D27D4EB4F
def prime3 : UInt64 := 0x165667B19E3779F9
def prime4 : UInt64 := 0x85EBCA77C2B2AE63
def prime5 : UInt64 := 0x27D4EB2F165667C5

/-- Turns a word to the left. -/
def rotate (x n : UInt64) : UInt64 := (x <<< n) ||| (x >>> (64 - n))

/-- Takes one word into a lane. -/
def round (lane word : UInt64) : UInt64 := rotate (lane + word * prime2) 31 * prime1

/-- The word of eight bytes at a place. -/
def wordAt (data : ByteArray) (i : Nat) : UInt64 := UInt64.ofNat (littleEndian data i 8)

/-- The four lanes. -/
structure Lanes where
  a : UInt64
  b : UInt64
  c : UInt64
  d : UInt64

/-- The lanes before the first block. -/
def Lanes.start : Lanes := ⟨prime1 + prime2, prime2, 0, 0 - prime1⟩

/-- Takes the block at a place into the lanes. -/
def Lanes.takeBlock (l : Lanes) (data : ByteArray) (i : Nat) : Lanes :=
  ⟨round l.a (wordAt data i), round l.b (wordAt data (i + 8)), round l.c (wordAt data (i + 16)),
    round l.d (wordAt data (i + 24))⟩

/-- Joins the lanes. -/
def Lanes.join (l : Lanes) : UInt64 :=
  let merge (h lane : UInt64) : UInt64 := (h ^^^ round 0 lane) * prime1 + prime4
  [l.a, l.b, l.c, l.d].foldl merge
    (rotate l.a 1 + rotate l.b 7 + rotate l.c 12 + rotate l.d 18)

/-- Mixes in the bytes that are left, up to `stop`: eight, four and one at a time. -/
def mixRest (data : ByteArray) (stop : Nat) : (steps i : Nat) → UInt64 → UInt64
  | 0, _, h => h
  | steps + 1, i, h =>
    if i + 8 ≤ stop then
      mixRest data stop steps (i + 8)
        (rotate (h ^^^ round 0 (wordAt data i)) 27 * prime1 + prime4)
    else if i + 4 ≤ stop then
      mixRest data stop steps (i + 4)
        (rotate (h ^^^ (UInt64.ofNat (littleEndian data i 4) * prime1)) 23 * prime2 + prime3)
    else if i < stop then
      mixRest data stop steps (i + 1)
        (rotate (h ^^^ (UInt64.ofNat (littleEndian data i 1) * prime5)) 11 * prime1)
    else h

/-- Spreads the bits of the result. -/
def avalanche (h : UInt64) : UInt64 :=
  let h := (h ^^^ (h >>> 33)) * prime2
  let h := (h ^^^ (h >>> 29)) * prime3
  h ^^^ (h >>> 32)

/-- The hash of the bytes from `start` up to `stop`. -/
def hash (data : ByteArray) (start stop : Nat) : UInt64 :=
  let size := stop - start
  let blocks := size / 32
  let h :=
    if blocks = 0 then prime5
    else
      let lanes := (List.range blocks).foldl (fun l k => l.takeBlock data (start + 32 * k)) Lanes.start
      lanes.join
  avalanche (mixRest data stop 32 (start + 32 * blocks) (h + UInt64.ofNat size))

end SqlDump.Codec.XxHash
