import SqlDump.Codec.Bits
/-!
# Canonical prefix codes

A canonical prefix code is given by the length of each symbol's code word. Words of one length are
consecutive numbers in the order of their symbols, and shorter words come first. A symbol is read
bit by bit: among the words of each length, the ones in use are the lowest that no shorter word
starts.
-/

namespace SqlDump.Codec

/-- A prefix code: how many words each length has, and the symbols in the order of their words. -/
structure PrefixCode where
  counts : Array Nat
  symbols : Array Nat

/-- The code in which symbol `i` has a word of length `lengths[i]`, or none if that is zero. No
length exceeds `longest`. -/
def PrefixCode.ofLengths (longest : Nat) (lengths : Array Nat) : PrefixCode :=
  let ofLength (n : Nat) : List Nat :=
    (List.range lengths.size).filter fun symbol => lengths[symbol]? == some n
  let groups := (List.range longest).map fun n => ofLength (n + 1)
  ⟨(0 :: groups.map List.length).toArray, groups.flatten.toArray⟩

/-- The number of symbols that have a word. -/
def PrefixCode.used (code : PrefixCode) : Nat := code.symbols.size

/-- How many words of the longest length the code covers. A full code covers `2 ^ longest`. -/
def PrefixCode.covered (code : PrefixCode) (longest : Nat) : Nat :=
  ((List.range longest).map fun n =>
    (code.counts[n + 1]?.getD 0) * Nat.pow 2 (longest - (n + 1))).foldl (· + ·) 0

variable {ε : Type}

/-- Reads a symbol when the words of length up to `length` have been tried. Those bits make the
number `word`, the lowest unused word of that length is `first`, and `index` symbols have shorter or
equally long words. At most `more` further bits are read. -/
def PrefixCode.readFrom (code : PrefixCode) (bit : BitReader ε Nat) (bad : ε) :
    (more length word first index : Nat) → BitReader ε Nat
  | 0, _, _, _, _ => throw bad
  | more + 1, length, word, first, index => do
    let word := 2 * word + (← bit)
    let first := 2 * first
    let count := code.counts[length + 1]?.getD 0
    if word < first + count then
      match code.symbols[index + (word - first)]? with
      | some symbol => return symbol
      | none => throw bad
    else code.readFrom bit bad more (length + 1) word (first + count) (index + count)

/-- Reads a symbol. After `longest` bits without a word the data is bad. -/
def PrefixCode.read (code : PrefixCode) (bit : BitReader ε Nat) (bad : ε) (longest : Nat) :
    BitReader ε Nat :=
  code.readFrom bit bad longest 0 0 0 0

end SqlDump.Codec
