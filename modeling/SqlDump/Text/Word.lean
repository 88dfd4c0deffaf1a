import SqlDump.Text.Scan
import SqlDump.Text.WordTable
/-!
# Words

A word is a longest run of word characters. `wholeWord` is the pattern of a phrase that neither
starts nor ends inside a word, written in any way that a folding of characters takes for equal.
-/

namespace SqlDump.Text

/-- Whether `n` lies in one of the ranges with index `lo` up to `hi`, halving that span at each
step. -/
def inRanges (ranges : Array (Nat × Nat)) (n : Nat) : Nat → Nat → Nat → Bool
  | 0, _, _ => false
  | steps + 1, lo, hi =>
    if lo < hi then
      let mid := (lo + hi) / 2
      match ranges[mid]? with
      | none => false
      | some (first, last) =>
        if n < first then inRanges ranges n steps lo mid
        else if last < n then inRanges ranges n steps (mid + 1) hi
        else true
    else false

/-- Whether a character belongs to a word: letters, digits and the underscore of ASCII, and the
characters of `wordRanges`. -/
def isWord (c : Char) : Bool :=
  if c.toNat < 128 then c.isAlphanum || c == '_'
  else inRanges wordRanges c.toNat wordRanges.size 0 wordRanges.size

/-- Whether a place lies between two characters of one word, or behind a word. -/
def endsInWord (before : Option Char) : Bool := before.any isWord

/-- Whether a text starts with a word character. -/
def startsInWord (s : List Char) : Bool := s.head?.any isWord

/-- Simple case folding, as far as it leads to ASCII: besides the capital letters of ASCII, the
Kelvin sign folds to `k` and the long s to `s`. -/
def foldCase (c : Char) : Char :=
  if c == '\u212A' then 'k' else if c == '\u017F' then 's' else c.toLower

/-- The pattern of a phrase that stands on its own, up to a folding of characters. The phrase is
given folded, and it starts and ends with a word character. -/
def wholeWord (fold : Char → Char) (phrase written : List Char) : Pattern (List Char) :=
  fun before s =>
    if !endsInWord before && (s.take phrase.length).map fold == phrase
        && !startsInWord (s.drop phrase.length) then
      some ⟨phrase.length, written⟩
    else none

end SqlDump.Text
