import SqlDump.Codec.Zstd.Bits
/-!
# Finite state entropy

A table of states writes symbols: each state stands for a symbol, and some bits of the stream lead to
the next state. A symbol has as many states as its share of the whole says. Symbols that are rarer
than one state have one state at the end of the table.
-/

namespace SqlDump.Codec.Zstd

/-- What a state stands for, and how the next state is found: a base and a number of bits to add. -/
structure FseState where
  symbol : Nat
  bits : Nat
  base : Nat
deriving Inhabited

/-- A table of `2 ^ log` states. -/
structure FseTable where
  log : Nat
  states : Array FseState

/-- The shares of the symbols, of a whole of `2 ^ log`. A share of -1 means less than one state. -/
structure Distribution where
  log : Nat
  shares : Array Int

/-- The symbols whose states are spread over the table, once for each state. -/
def Distribution.spreadSymbols (d : Distribution) : List Nat :=
  d.shares.toList.zipIdx.flatMap fun (share, symbol) => List.replicate share.toNat symbol

/-- The symbols with less than one state. -/
def Distribution.rareSymbols (d : Distribution) : List Nat :=
  d.shares.toList.zipIdx.filterMap fun (share, symbol) => if share = -1 then some symbol else none

/-- The next place for a state behind `place`: a fixed step on, around the table, until it is below
`limit`. -/
def nextPlace (size limit : Nat) : (tries place : Nat) → Nat
  | 0, place => place
  | tries + 1, place =>
    let next := (place + size / 2 + size / 8 + 3) % size
    if next < limit then next else nextPlace size limit tries next

/-- The symbol of each state. -/
def Distribution.layout (d : Distribution) : Array Nat :=
  let size := Nat.pow 2 d.log
  let rare := d.rareSymbols
  let limit := size - rare.length
  let ends := rare.zipIdx.foldl (fun layout (symbol, k) => layout.setIfInBounds (size - 1 - k) symbol)
    (Array.replicate size 0)
  (d.spreadSymbols.foldl
    (fun (layout, place) symbol =>
      (layout.setIfInBounds place symbol, nextPlace size limit size place))
    (ends, 0)).1

/-- The table of a distribution. The states of a symbol are numbered from its share on, in the order
of their places, and the number gives the bits and the base of a state. -/
def Distribution.table (d : Distribution) : FseTable :=
  let numbers := d.shares.map fun share => if share = -1 then 1 else share.toNat
  let step (acc : Array FseState × Array Nat) (symbol : Nat) : Array FseState × Array Nat :=
    let number := acc.2[symbol]?.getD 1
    let bits := d.log - number.log2
    (acc.1.push ⟨symbol, bits, number * Nat.pow 2 bits - Nat.pow 2 d.log⟩,
      acc.2.modify symbol (· + 1))
  ⟨d.log, (d.layout.foldl step (#[], numbers)).1⟩

/-- The table whose only state stands for one symbol. -/
def FseTable.single (symbol : Nat) : FseTable := ⟨0, #[⟨symbol, 0, 0⟩]⟩

/-- Symbols without a share, behind the bit `place`: groups of two bits count them, and a count of
three means that another group follows. -/
def readZeros (data : ByteArray) (stop : Nat) : (steps place : Nat) → Nat × Nat
  | 0, place => (0, place)
  | steps + 1, place =>
    let count := forwardBits data stop place 2
    if count = 3 then
      let (more, place) := readZeros data stop steps (place + 2)
      (3 + more, place)
    else (count, place + 2)

/-- The shares of symbols up to `limit`, until they make up the whole, of which `remaining` less one
is left. A number that is small enough for what remains takes one bit less. Gives the bit behind the
shares too. -/
def readShares (data : ByteArray) (stop limit : Nat) : (steps place remaining : Nat) → Bool →
    Array Int → Option (Array Int × Nat)
  | 0, _, _, _, _ => none
  | steps + 1, place, remaining, afterZero, shares =>
    if remaining ≤ 1 then some (shares, place)
    else
      let (zeros, place) := if afterZero then readZeros data stop (limit + 1) place else (0, place)
      let shares := shares ++ Array.replicate zeros 0
      if limit < shares.size then none
      else
        let log := remaining.log2
        let short := Nat.pow 2 (log + 1) - 1 - remaining
        let low := forwardBits data stop place log
        let full := forwardBits data stop place (log + 1)
        let (value, bits) :=
          if low < short then (low, log)
          else (if full < Nat.pow 2 log then full else full - short, log + 1)
        let share : Int := value - 1
        readShares data stop limit steps (place + bits) (remaining - share.natAbs) (share == 0)
          (shares.push share)

/-- A distribution of symbols up to `maxSymbol`, with a whole of at most `2 ^ maxLog`. Gives the byte
behind it too. -/
def readDistribution? (data : ByteArray) (start stop maxSymbol maxLog : Nat) :
    Option (Distribution × Nat) := do
  let log := forwardBits data stop (8 * start) 4 + 5
  if maxLog < log then none
  let (shares, place) ← readShares data stop maxSymbol (maxSymbol + 2) (8 * start + 4)
    (Nat.pow 2 log + 1) false #[]
  let next := (place + 7) / 8
  if next ≤ stop then some (⟨log, shares⟩, next) else none

/-- The first state, which is read as a number. -/
def FseTable.start? (table : FseTable) (bits : BackwardBits) : Option (Nat × BackwardBits) :=
  bits.read? table.log

/-- What a state stands for. -/
def FseTable.state (table : FseTable) (i : Nat) : FseState := table.states[i]?.getD default

/-- The state behind a state. -/
def FseTable.next? (table : FseTable) (i : Nat) (bits : BackwardBits) : Option (Nat × BackwardBits) :=
  let state := table.state i
  (bits.read? state.bits).map fun (n, rest) => (state.base + n, rest)

end SqlDump.Codec.Zstd
