/-!
# Similarity of words

How much two words look alike, to find what a mistyped word was meant to be. The measure is Jaro's:
it counts the characters that the words share at nearly the same places, and those of them that
stand in another order.
-/

namespace SqlDump.CommandLine

/-- Marks the first free place that holds a character, among those from `lo` on and before `hi`. -/
def mark? (c : Char) : (lo hi : Nat) → List (Char × Bool) → Option (List (Char × Bool))
  | _, 0, _ => none
  | _, _, [] => none
  | lo, hi + 1, (x, taken) :: places =>
    if lo = 0 ∧ x = c ∧ taken = false then some ((x, true) :: places)
    else (mark? c (lo - 1) hi places).map ((x, taken) :: ·)

/-- The characters of a word, from place `i` on, that find a free place at most `range` away, and
the characters at the places that are taken in the end. -/
def sharedFrom (range : Nat) : (i : Nat) → List Char → List (Char × Bool) → List Char × List Char
  | _, [], places => ([], (places.filter (·.2)).map (·.1))
  | i, c :: word, places =>
    match mark? c (i - range) (i + range + 1) places with
    | some places =>
      let (shared, found) := sharedFrom range (i + 1) word places
      (c :: shared, found)
    | none => sharedFrom range (i + 1) word places

/-- The similarity of two words, from 0 for no shared character to 1 for equal words. -/
def similarity (a b : List Char) : Float :=
  if a.isEmpty && b.isEmpty then 1
  else
    let range := max a.length b.length / 2 - 1
    let (shared, found) := sharedFrom range 0 a (b.map fun c => (c, false))
    if shared.isEmpty then 0
    else
      let count := shared.length
      let swaps := (shared.zip found).countP (fun pair => pair.1 != pair.2) / 2
      (count.toFloat / a.length.toFloat + count.toFloat / b.length.toFloat
        + (count - swaps).toFloat / count.toFloat) / 3

/-- Candidates whose names look like a word, the most similar last. Equally similar ones stay in
order. -/
def similarTo (word : String) (name : α → String) (candidates : List α) : List α :=
  let scored := candidates.map fun candidate => (similarity word.toList (name candidate).toList, candidate)
  ((scored.filter fun entry => entry.1 > 0.7).mergeSort fun x y => x.1 ≤ y.1).map (·.2)

/-- The candidate whose name looks most like a word, if any is similar enough. -/
def mostSimilar? (word : String) (name : α → String) (candidates : List α) : Option α :=
  (similarTo word name candidates).getLast?

end SqlDump.CommandLine
