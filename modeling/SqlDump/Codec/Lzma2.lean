import SqlDump.Codec.Lzma
/-!
# LZMA2

LZMA2 data is a sequence of chunks, each with its sizes. A chunk holds bytes as they are, or LZMA
data. It may start with a new dictionary, with new properties, or with fresh probabilities. A zero
byte ends the sequence.
-/

namespace SqlDump.Codec.Lzma2

open Lzma

/-- What one chunk leaves to the next. -/
structure State where
  decoder : Decoder
  /-- The next chunk must start a new dictionary. -/
  needsDictionary : Bool
  /-- The next chunk of LZMA data must bring properties. -/
  needsProperties : Bool

/-- A byte of the file, which must exist. -/
def byteAt (data : ByteArray) (i : Nat) : Except Error Nat :=
  match data[i]? with
  | some byte => .ok byte.toNat
  | none => .error .endOfFile

/-- Fresh probabilities and distances for some properties. -/
def refresh (d : Decoder) (p : Properties) : Decoder :=
  { d with
    probabilities := p.probabilities, properties := p, state := 0, distances := (0, 0, 0, 0) }

/-- A chunk of bytes as they are. -/
def copyChunk (s : State) (size : Nat) : Except Error State := do
  let d := s.decoder
  if d.data.size < d.place + size then throw .endOfFile
  let out := d.out ++ d.data.extract d.place (d.place + size)
  return { s with decoder := { d with out := out, place := d.place + size } }

/-- The properties at the head of a chunk of LZMA data, if its control byte says that there are
any. -/
def takeProperties (control : Nat) (s : State) : Except Error State := do
  if 0xC0 ≤ control then
    match Properties.ofByte? (← byteAt s.decoder.data s.decoder.place) with
    | none => throw .corrupt
    | some p =>
      let d := { s.decoder with place := s.decoder.place + 1 }
      return { s with decoder := refresh d p, needsProperties := false }
  else if 0xA0 ≤ control then
    return { s with decoder := refresh s.decoder s.decoder.properties }
  else return s

/-- A chunk of LZMA data with the given sizes before and after compression. -/
def lzmaChunk (s : State) (size compressed : Nat) : Except Error State := do
  let stop := s.decoder.place + compressed
  let reader : Decode Unit := do
    modify fun d => { d with stop := stop }
    startRange
    readTo ((← get).out.size + size) (size + 1)
  let ((), d) ← reader s.decoder
  if d.place ≠ stop then throw .corrupt
  return { s with decoder := d }

/-- The chunks up to the one that ends the data. -/
def readChunks : (steps : Nat) → State → Except Error Decoder
  | 0, _ => throw .endOfFile
  | steps + 1, s => do
    let d := s.decoder
    let control ← byteAt d.data d.place
    if control = 0 then return { d with place := d.place + 1 }
    let fresh := 0xE0 ≤ control ∨ control = 1
    if s.needsDictionary ∧ ¬fresh then throw .corrupt
    let needsProperties := s.needsProperties ∨ fresh
    if 0x80 ≤ control ∧ control < 0xC0 ∧ needsProperties then throw .corrupt
    if control < 0x80 ∧ 2 < control then throw .corrupt
    let base := if fresh then d.out.size else d.base
    let size2 ← byteAt d.data (d.place + 1)
    let size1 ← byteAt d.data (d.place + 2)
    if control < 0x80 then
      let s := ⟨{ d with place := d.place + 3, base := base }, false, needsProperties⟩
      readChunks steps (← copyChunk s (256 * size2 + size1 + 1))
    else
      let compressed2 ← byteAt d.data (d.place + 3)
      let compressed1 ← byteAt d.data (d.place + 4)
      let s ← takeProperties control
        ⟨{ d with place := d.place + 5, base := base }, false, needsProperties⟩
      readChunks steps (← lzmaChunk s (65536 * (control % 32) + 256 * size2 + size1 + 1)
        (256 * compressed2 + compressed1 + 1))

/-- Decodes LZMA2 data from a place on, with a dictionary of some size. Gives the output and the place
behind the data. -/
def decode (data : ByteArray) (start dictionarySize : Nat) : Except Error (ByteArray × Nat) := do
  let decoder : Decoder :=
    { data := data, place := start, stop := start, range := 0, code := 0, probabilities := #[]
      properties := ⟨0, 0, 0⟩, state := 0, distances := (0, 0, 0, 0), base := 0
      dictionarySize := dictionarySize, out := ByteArray.empty }
  let d ← readChunks (data.size + 1) ⟨decoder, true, true⟩
  return (d.out, d.place)

end SqlDump.Codec.Lzma2
