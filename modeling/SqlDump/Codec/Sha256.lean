/-!
# SHA-256

The hash of 256 bits that FIPS 180-4 defines.
-/

namespace SqlDump.Codec.Sha256

/-- The constants of the 64 rounds. -/
def roundConstants : Array UInt32 := #[
  0x428A2F98, 0x71374491, 0xB5C0FBCF, 0xE9B5DBA5, 0x3956C25B, 0x59F111F1, 0x923F82A4, 0xAB1C5ED5,
  0xD807AA98, 0x12835B01, 0x243185BE, 0x550C7DC3, 0x72BE5D74, 0x80DEB1FE, 0x9BDC06A7, 0xC19BF174,
  0xE49B69C1, 0xEFBE4786, 0x0FC19DC6, 0x240CA1CC, 0x2DE92C6F, 0x4A7484AA, 0x5CB0A9DC, 0x76F988DA,
  0x983E5152, 0xA831C66D, 0xB00327C8, 0xBF597FC7, 0xC6E00BF3, 0xD5A79147, 0x06CA6351, 0x14292967,
  0x27B70A85, 0x2E1B2138, 0x4D2C6DFC, 0x53380D13, 0x650A7354, 0x766A0ABB, 0x81C2C92E, 0x92722C85,
  0xA2BFE8A1, 0xA81A664B, 0xC24B8B70, 0xC76C51A3, 0xD192E819, 0xD6990624, 0xF40E3585, 0x106AA070,
  0x19A4C116, 0x1E376C08, 0x2748774C, 0x34B0BCB5, 0x391C0CB3, 0x4ED8AA4A, 0x5B9CCA4F, 0x682E6FF3,
  0x748F82EE, 0x78A5636F, 0x84C87814, 0x8CC70208, 0x90BEFFFA, 0xA4506CEB, 0xBEF9A3F7, 0xC67178F2]

/-- The eight words of a state. -/
structure State where
  a : UInt32
  b : UInt32
  c : UInt32
  d : UInt32
  e : UInt32
  f : UInt32
  g : UInt32
  h : UInt32

/-- The state before the first block. -/
def State.start : State :=
  ⟨0x6A09E667, 0xBB67AE85, 0x3C6EF372, 0xA54FF53A, 0x510E527F, 0x9B05688C, 0x1F83D9AB, 0x5BE0CD19⟩

/-- Turns a word to the right. -/
def rotate (x n : UInt32) : UInt32 := (x >>> n) ||| (x <<< (32 - n))

/-- One round with a word of the schedule and its constant. -/
def State.round (s : State) (word constant : UInt32) : State :=
  let s1 := rotate s.e 6 ^^^ rotate s.e 11 ^^^ rotate s.e 25
  let choice := (s.e &&& s.f) ^^^ (~~~s.e &&& s.g)
  let t1 := s.h + s1 + choice + constant + word
  let s0 := rotate s.a 2 ^^^ rotate s.a 13 ^^^ rotate s.a 22
  let majority := (s.a &&& s.b) ^^^ (s.a &&& s.c) ^^^ (s.b &&& s.c)
  ⟨t1 + (s0 + majority), s.a, s.b, s.c, s.d + t1, s.e, s.f, s.g⟩

/-- The word of four bytes at a place, the first byte being the highest. -/
def wordAt (data : ByteArray) (i : Nat) : UInt32 :=
  let byte (k : Nat) : UInt32 := (data[i + k]?.getD 0).toUInt32
  (byte 0 <<< 24) ||| (byte 1 <<< 16) ||| (byte 2 <<< 8) ||| byte 3

/-- The next word of a schedule. -/
def nextWord (words : Array UInt32) : UInt32 :=
  let back (k : Nat) : UInt32 := words[words.size - k]?.getD 0
  let w15 := back 15
  let w2 := back 2
  let s0 := rotate w15 7 ^^^ rotate w15 18 ^^^ (w15 >>> 3)
  let s1 := rotate w2 17 ^^^ rotate w2 19 ^^^ (w2 >>> 10)
  back 16 + s0 + back 7 + s1

/-- The 64 words of the schedule of the block at a place. -/
def schedule (data : ByteArray) (i : Nat) : Array UInt32 :=
  let words := (Array.range 16).map fun k => wordAt data (i + 4 * k)
  Nat.repeat (fun words => words.push (nextWord words)) 48 words

/-- Takes the block at a place into a state. -/
def State.takeBlock (s : State) (data : ByteArray) (i : Nat) : State :=
  let t := ((schedule data i).zip roundConstants).foldl (fun t (word, constant) => t.round word constant) s
  ⟨s.a + t.a, s.b + t.b, s.c + t.c, s.d + t.d, s.e + t.e, s.f + t.f, s.g + t.g, s.h + t.h⟩

/-- A message with its end mark, zeros, and its length in bits, in whole blocks of 64 bytes. -/
def pad (message : ByteArray) : ByteArray :=
  let zeros := (119 - message.size % 64) % 64
  let length := (List.range 8).map fun k => UInt8.ofNat (8 * message.size / Nat.pow 256 (7 - k))
  ⟨message.data ++ #[0x80] ++ Array.replicate zeros 0 ++ length.toArray⟩

/-- The hash of a message. -/
def hash (message : ByteArray) : ByteArray :=
  let padded := pad message
  let s := (List.range (padded.size / 64)).foldl (fun s k => s.takeBlock padded (64 * k)) State.start
  let bytes (x : UInt32) : List UInt8 :=
    [(x >>> 24).toUInt8, (x >>> 16).toUInt8, (x >>> 8).toUInt8, x.toUInt8]
  ⟨([s.a, s.b, s.c, s.d, s.e, s.f, s.g, s.h].flatMap bytes).toArray⟩

end SqlDump.Codec.Sha256
