/-!
# Text of arbitrary bytes

Bytes that are not UTF-8 are shown with a replacement character for each longest part that starts a
character but does not go on to its end, and for each byte that starts none.
-/

namespace SqlDump.Text

/-- The bytes that may follow the first byte of a character, one range for each, or none if the byte
starts no character of several bytes. -/
def continuations (first : UInt8) : List (UInt8 × UInt8) :=
  let any : UInt8 × UInt8 := (0x80, 0xBF)
  if first < 0xC2 then []
  else if first < 0xE0 then [any]
  else if first = 0xE0 then [(0xA0, 0xBF), any]
  else if first = 0xED then [(0x80, 0x9F), any]
  else if first < 0xF0 then [any, any]
  else if first = 0xF0 then [(0x90, 0xBF), any, any]
  else if first < 0xF4 then [any, any, any]
  else if first = 0xF4 then [(0x80, 0x8F), any, any]
  else []

/-- How many bytes lie in the given ranges, one after another, up to the first that does not. -/
def matching : List (UInt8 × UInt8) → List UInt8 → Nat
  | (low, high) :: ranges, byte :: rest =>
    if low ≤ byte ∧ byte ≤ high then 1 + matching ranges rest else 0
  | _, _ => 0

/-- The character of some bytes of UTF-8, the first of which has the given number of others
behind it. -/
def assemble (first : UInt8) (others : List UInt8) : Char :=
  let front := match others.length with
    | 1 => first.toNat % 32
    | 2 => first.toNat % 16
    | _ => first.toNat % 8
  Char.ofNat (others.foldl (fun n byte => 64 * n + byte.toNat % 64) front)

/-- Reads bytes as UTF-8, of which `skip` belong to the last character. -/
def lossyFrom : (skip : Nat) → List Char → List UInt8 → List Char
  | _, shown, [] => shown.reverse
  | skip + 1, shown, _ :: rest => lossyFrom skip shown rest
  | 0, shown, byte :: rest =>
    if byte < 0x80 then lossyFrom 0 (Char.ofNat byte.toNat :: shown) rest
    else
      let ranges := continuations byte
      let count := matching ranges rest
      if ranges.isEmpty ∨ count < ranges.length then lossyFrom count ('\uFFFD' :: shown) rest
      else lossyFrom count (assemble byte (rest.take count) :: shown) rest

/-- The text of some bytes, with replacement characters for what is not UTF-8. -/
def lossy (bytes : List UInt8) : List Char := lossyFrom 0 [] bytes

end SqlDump.Text
