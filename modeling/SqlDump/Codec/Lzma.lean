/-!
# LZMA

Data is written as a sequence of yes-or-no decisions. A range coder keeps a range of numbers and
splits it at each decision in the proportion of a probability, which then moves towards the decision
taken. The decisions spell literal bytes and matches, each in a context of what came before.
-/

namespace SqlDump.Codec.Lzma

/-- Why data cannot be decoded: it ends too early, or it breaks the rules of the format. -/
inductive Error where
  | endOfFile
  | corrupt
deriving DecidableEq, Repr

/-- How many bits of the byte before and of the position select the contexts of a literal, and how
many bits of the position select those of other decisions. -/
structure Properties where
  literalBits : Nat
  literalPositionBits : Nat
  positionBits : Nat

/-- Properties that are packed into one byte. -/
def Properties.ofByte? (byte : Nat) : Option Properties :=
  if 225 ≤ byte then none
  else
    let p : Properties := ⟨byte % 9, byte / 9 % 5, byte / 45⟩
    if p.literalBits + p.literalPositionBits ≤ 4 then some p else none

/-! ## Where the probabilities of a decision stand -/

def isMatchAt (state position : Nat) : Nat := 16 * state + position
def isRepeatAt (state : Nat) : Nat := 192 + state
def isOlderAt (age state : Nat) : Nat := 204 + 12 * age + state
def isLongAt (state position : Nat) : Nat := 240 + 16 * state + position
def slotAt (lengthClass : Nat) : Nat := 432 + 64 * lengthClass
def distanceAt : Nat := 688
def alignAt : Nat := 816
def matchLengthAt : Nat := 832
def repeatLengthAt : Nat := 1346
def literalAt : Nat := 1860

/-- All probabilities at the start: both decisions are equally likely, which is 1024 of 2048. -/
def Properties.probabilities (p : Properties) : Array Nat :=
  .replicate (literalAt + 0x300 * Nat.pow 2 (p.literalBits + p.literalPositionBits)) 1024

/-! ## The range coder -/

/-- The state of a decoder. The input is read up to `stop`, where the compressed data ends. The
distances of the last four matches are one less than the bytes that they go back, and matches reach
back to the place `base` of the output. -/
structure Decoder where
  data : ByteArray
  place : Nat
  stop : Nat
  range : Nat
  code : Nat
  probabilities : Array Nat
  properties : Properties
  state : Nat
  distances : Nat × Nat × Nat × Nat
  base : Nat
  dictionarySize : Nat
  out : ByteArray

abbrev Decode := StateT Decoder (Except Error)

/-- The next byte. Compressed data that goes on behind its end is corrupt, unless the file ends
there. -/
def nextByte : Decode Nat := fun d =>
  match d.data[d.place]? with
  | none => .error .endOfFile
  | some byte =>
    if d.place < d.stop then .ok (byte.toNat, { d with place := d.place + 1 }) else .error .corrupt

/-- Keeps the range large. -/
def normalize : Decode Unit := do
  if (← get).range < 0x1000000 then
    let byte ← nextByte
    modify fun d => { d with range := 256 * d.range, code := 256 * d.code + byte }

/-- The first five bytes, of which the first is zero, start the range coder. -/
def startRange : Decode Unit := do
  if (← nextByte) ≠ 0 then throw .corrupt
  let b3 ← nextByte
  let b2 ← nextByte
  let b1 ← nextByte
  let b0 ← nextByte
  modify fun d => { d with range := 0xFFFFFFFF, code := ((b3 * 256 + b2) * 256 + b1) * 256 + b0 }

/-- A decision by the probability with an index. -/
def bit (index : Nat) : Decode Nat := do
  normalize
  modifyGet fun d =>
    let probability := d.probabilities[index]?.getD 1024
    let bound := d.range / 2048 * probability
    if d.code < bound then
      (0, { d with
        range := bound
        probabilities := d.probabilities.setIfInBounds index
          (probability + (2048 - probability) / 32) })
    else
      (1, { d with
        range := d.range - bound
        code := d.code - bound
        probabilities := d.probabilities.setIfInBounds index (probability - probability / 32) })

/-- A number of decisions that are equally likely either way, the first one being the highest bit of
the result, behind the bits of `front`. -/
def directBits : (count front : Nat) → Decode Nat
  | 0, front => return front
  | count + 1, front => do
    normalize
    let decision ← modifyGet fun d =>
      let half := d.range / 2
      if d.code < half then (0, { d with range := half })
      else (1, { d with range := half, code := d.code - half })
    directBits count (2 * front + decision)

/-- Bits from the highest on, each in the context of the ones before. They are put behind `node`,
which starts at one. -/
def tree (start : Nat) : (count node : Nat) → Decode Nat
  | 0, node => return node
  | count + 1, node => do
    let b ← bit (start + node)
    tree start count (2 * node + b)

/-- A number of so many bits, from the highest on. -/
def treeBits (start count : Nat) : Decode Nat := return (← tree start count 1) - Nat.pow 2 count

/-- A number from its lowest bit on, each bit in the context of the ones before. -/
def reverseTree (start : Nat) : (count node : Nat) → Decode Nat
  | 0, _ => return 0
  | count + 1, node => do
    let b ← bit (start + node)
    let more ← reverseTree start count (2 * node + b)
    return b + 2 * more

/-! ## Literals and matches -/

/-- The number of bytes that matches can reach back to. -/
def Decoder.position (d : Decoder) : Nat := d.out.size - d.base

/-- The byte that is `distance + 1` bytes back. -/
def Decoder.back (d : Decoder) (distance : Nat) : Nat :=
  if distance < d.position then (d.out[d.out.size - distance - 1]?.getD 0).toNat else 0

/-- Whether a match can go back so far. -/
def Decoder.reaches (d : Decoder) (distance : Nat) : Bool :=
  distance < d.position && distance < d.dictionarySize

/-- The low bits of the position. -/
def Decoder.positionContext (d : Decoder) : Nat := d.position % Nat.pow 2 d.properties.positionBits

/-- The bits of a literal behind a match, each also in the context of the byte that the match would
have gone on with. That byte counts while it agrees with the literal. -/
def matchedLiteral (start : Nat) : (count node matched offset : Nat) → Decode Nat
  | 0, node, _, _ => return node
  | count + 1, node, matched, offset => do
    let matched := 2 * matched
    let expected := if (matched / 256) % 2 = 1 then offset else 0
    let b ← bit (start + offset + expected + node)
    let offset := if b = 1 ↔ expected ≠ 0 then offset else 0
    matchedLiteral start count (2 * node + b) matched offset

/-- A literal byte. -/
def literal : Decode Unit := do
  let d ← get
  let p := d.properties
  let context := d.position % Nat.pow 2 p.literalPositionBits * Nat.pow 2 p.literalBits
    + d.back 0 / Nat.pow 2 (8 - p.literalBits)
  let start := literalAt + 0x300 * context
  let state := d.state
  let expected := d.back d.distances.1
  let node ← if state < 7 then tree start 8 1 else matchedLiteral start 8 1 expected 256
  let next := if state < 4 then 0 else if state < 10 then state - 3 else state - 6
  modify fun d => { d with out := d.out.push (UInt8.ofNat node), state := next }

/-- The length of a match. -/
def readLength (start position : Nat) : Decode Nat := do
  if (← bit start) = 0 then return 2 + (← treeBits (start + 2 + 8 * position) 3)
  else if (← bit (start + 1)) = 0 then return 10 + (← treeBits (start + 130 + 8 * position) 3)
  else return 18 + (← treeBits (start + 258) 8)

/-- The distance of a match with some length. -/
def readDistance (length : Nat) : Decode Nat := do
  let slot ← treeBits (slotAt (min (length - 2) 3)) 6
  if slot < 4 then return slot
  let bits := slot / 2 - 1
  let front := 2 + slot % 2
  if slot < 14 then
    let start := front * Nat.pow 2 bits
    return start + (← reverseTree (distanceAt + start - slot) bits 1)
  else
    let high ← directBits (bits - 4) front
    return 16 * high + (← reverseTree alignAt 4 1)

/-- Repeats bytes of the output. -/
def copyBack (distance : Nat) : Nat → ByteArray → ByteArray
  | 0, out => out
  | n + 1, out => copyBack distance n (out.push (out[out.size - distance - 1]?.getD 0))

/-- Takes the distance of an older match again: zero for the last one, up to three. -/
def moveDistance (age : Nat) : Nat × Nat × Nat × Nat → Nat × Nat × Nat × Nat
  | (a, b, c, d) =>
    match age with
    | 0 => (a, b, c, d)
    | 1 => (b, a, c, d)
    | 2 => (c, a, b, d)
    | _ => (d, a, b, c)

/-- Which of the last distances a match repeats, when it is not the last one. -/
def readAge (state : Nat) : Decode Nat := do
  if (← bit (isOlderAt 1 state)) = 0 then return 1
  else if (← bit (isOlderAt 2 state)) = 0 then return 2
  else return 3

/-- A match with a distance of its own. Gives its length. -/
def readNewMatch (state position : Nat) : Decode Nat := do
  let length ← readLength matchLengthAt position
  let distance ← readDistance length
  if !(← get).reaches distance then throw .corrupt
  modify fun d =>
    let (a, b, c, _) := d.distances
    { d with distances := (distance, a, b, c), state := if state < 7 then 7 else 10 }
  return length

/-- A match with an older distance. -/
def readOldMatch (state position age : Nat) : Decode Nat := do
  let length ← readLength repeatLengthAt position
  modify fun d =>
    { d with distances := moveDistance age d.distances, state := if state < 7 then 8 else 11 }
  return length

/-- A match of any kind. Its distance is put in front of the others. -/
def readMatch (state position : Nat) : Decode Nat := do
  if (← bit (isRepeatAt state)) = 0 then readNewMatch state position
  else if !(← get).reaches 0 then throw .corrupt
  else if (← bit (isOlderAt 0 state)) = 1 then readOldMatch state position (← readAge state)
  else if (← bit (isLongAt state position)) = 1 then readOldMatch state position 0
  else
    modify fun d => { d with state := if state < 7 then 9 else 11 }
    return 1

/-- A literal or a match. No match may go on behind `size`. -/
def readStep (size : Nat) : Decode Unit := do
  let d ← get
  let (state, position, produced) := (d.state, d.positionContext, d.out.size)
  if (← bit (isMatchAt state position)) = 0 then literal
  else
    let length ← readMatch state position
    if size < produced + length then throw .corrupt
    modify fun d => { d with out := copyBack d.distances.1 length d.out }

/-- Literals and matches until the output has a size. Then nothing is left in the range coder. -/
def readTo (size : Nat) : (steps : Nat) → Decode Unit
  | 0 => throw .corrupt
  | steps + 1 => do
    if size ≤ (← get).out.size then
      normalize
      if (← get).code ≠ 0 then throw .corrupt
    else
      readStep size
      readTo size steps

end SqlDump.Codec.Lzma
