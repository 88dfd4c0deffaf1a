import SqlDump.Proofs.Rule.Slot
/-!
# Which values become truth values

The six passes over a text share its commas, so that of several zeros in a row a pass misses every
other one. `atoms_booleanValues` says which digits are written, from the atoms of the text alone: those
at the border of a value list, and those that have an odd place in their row.
-/

namespace SqlDump.Rule

open Text

/-- The digit that stands for a truth value in a dump. -/
def truthDigit (value : Bool) : Char := if value then '1' else '0'

/-- The name of a truth value. -/
def truthName (value : Bool) : List Char := if value then "TRUE".toList else "FALSE".toList

/-- A digit between two delimiters, for which its truth value is written. -/
def truthSlot (left right : Char) (value : Bool) (hleft : isDelimiter left = true := by decide)
    (hright : isDelimiter right = true := by decide) : Slot where
  stem := []
  left := left
  old := [truthDigit value]
  new := truthName value
  right := right
  left_delimits := hleft
  old_plain := by cases value <;> decide
  new_plain := by cases value <;> decide
  right_delimits := hright

/-- The slots of truth values, in the order of the passes. -/
def truthSlots : List Slot :=
  [truthSlot ',' ',' false, truthSlot ',' ',' true, truthSlot '(' ',' false, truthSlot '(' ',' true,
    truthSlot ',' ')' false, truthSlot ',' ')' true]

theorem booleanValues_eq (s : List Char) : booleanValues s = Slot.rewriteAll truthSlots s := rfl

theorem truthSlots_distinct : truthSlots.Pairwise Slot.Distinct := by decide

/-- An atom that is one digit between two commas. -/
def inRow (value : Bool) (a : Atom) : Bool :=
  a.before == some ',' && a.text == [truthDigit value] && a.behind == some ','

/-- The place of an atom in its row, the longest run of such digits next to each other, if `earlier` are
the atoms before it. The first one has place 1. -/
def placeInRow (value : Bool) (earlier : List Atom) : Nat :=
  (earlier.reverse.takeWhile (inRow value)).length + 1

/-- A digit that is taken for a truth value: at the border of a list, or at an odd place in a row. -/
def IsTruthValue (value : Bool) (earlier : List Atom) (a : Atom) : Prop :=
  a.text = [truthDigit value] ∧
    (a.before = some '(' ∧ a.behind = some ',' ∨ a.before = some ',' ∧ a.behind = some ')' ∨
      a.before = some ',' ∧ a.behind = some ',' ∧ Odd (placeInRow value earlier))

instance (value : Bool) (earlier : List Atom) (a : Atom) : Decidable (IsTruthValue value earlier a) :=
  inferInstanceAs (Decidable (_ ∧ _))

/-- What an atom behind `earlier` ones is written as. -/
def truthText (earlier : List Atom) (a : Atom) : List Char :=
  if IsTruthValue false earlier a then "FALSE".toList
  else if IsTruthValue true earlier a then "TRUE".toList
  else a.text

/-! ## What the passes see -/

theorem placeInRow_concat (value : Bool) (earlier : List Atom) (a : Atom) :
    placeInRow value (earlier ++ [a]) = if inRow value a then placeInRow value earlier + 1 else 1 := by
  unfold placeInRow
  rw [List.reverse_concat, List.takeWhile_cons]
  cases inRow value a <;> rfl

/-- In a pass between two commas the left one is free at every odd place of a row. -/
theorem after_row (value : Bool) (earlier : List Atom) :
    (truthSlot ',' ',' value).sweep.after true earlier = decide (Odd (placeInRow value earlier)) := by
  induction earlier using List.reverseRecOn with
  | nil => rfl
  | append_singleton earlier a ih =>
    have hnext : (truthSlot ',' ',' value).sweep.next (decide (Odd (placeInRow value earlier))) a =
        !(decide (Odd (placeInRow value earlier)) && inRow value a) := by
      simp [Slot.sweep, Slot.hits, truthSlot, inRow, Bool.and_assoc]
    rw [Sweep.after_concat, ih, hnext, placeInRow_concat]
    cases inRow value a with
    | false => simp
    | true => simp only [Bool.and_true, if_true, Nat.odd_add_one, decide_not]

/-- Next to a parenthesis no match is in the way of another. -/
theorem after_border {left right : Char} (hl : isDelimiter left = true) (hr : isDelimiter right = true)
    (hne : left ≠ right) (value : Bool) (earlier : List Atom) :
    (truthSlot left right value hl hr).sweep.after true earlier = true := by
  induction earlier using List.reverseRecOn with
  | nil => rfl
  | append_singleton earlier a ih => simp [Sweep.after_concat, Slot.sweep, truthSlot, hne]

theorem hits_row (value : Bool) (earlier : List Atom) (a : Atom) :
    (truthSlot ',' ',' value).hits ((truthSlot ',' ',' value).sweep.after true earlier) a = true ↔
      a.text = [truthDigit value] ∧ a.before = some ',' ∧ a.behind = some ',' ∧
        Odd (placeInRow value earlier) := by
  rw [Slot.hits_iff, after_row, decide_eq_true_iff]
  simp only [truthSlot]
  tauto

theorem hits_border {left right : Char} (hl : isDelimiter left = true) (hr : isDelimiter right = true)
    (hne : left ≠ right) (value : Bool) (earlier : List Atom) (a : Atom) :
    (truthSlot left right value hl hr).hits
        ((truthSlot left right value hl hr).sweep.after true earlier) a = true ↔
      a.text = [truthDigit value] ∧ a.before = some left ∧ a.behind = some right := by
  rw [Slot.hits_iff, after_border hl hr hne]
  simp only [truthSlot]
  tauto

/-- The six passes together write the digits that are taken for truth values. -/
theorem writeFirst_truthSlots (earlier : List Atom) (a : Atom) :
    Slot.writeFirst truthSlots earlier a = truthText earlier a := by
  unfold truthSlots truthText IsTruthValue
  simp only [Slot.writeFirst_cons, hits_row, hits_border _ _ (show '(' ≠ ',' by decide),
    hits_border _ _ (show ',' ≠ ')' by decide)]
  -- each digit stands in three of the six passes, which write the same for it
  by_cases hzero : a.text = ['0']
  · simp only [truthSlot, truthDigit, truthName, hzero, Slot.writeFirst]
    grind
  · simp only [truthSlot, truthDigit, truthName, Slot.writeFirst]
    grind

/-- A comma or parenthesis is never touched, and of the atoms between them exactly the digits that are
taken for truth values are written anew. -/
theorem atoms_booleanValues (s : List Char) : delimiters (booleanValues s) = delimiters s ∧
    atoms (booleanValues s) = (atoms s).mapIdx fun i a => a.withText (truthText ((atoms s).take i) a) := by
  constructor
  · exact Slot.delimiters_rewriteAll truthSlots s
  · rw [booleanValues_eq, Slot.atoms_rewriteAll truthSlots_distinct]
    simp only [writeFirst_truthSlots]

/-- Two zeros in a row share a comma, so that the second one is missed. -/
example : booleanValues "(5,0,0,5)".toList = "(5,FALSE,0,5)".toList := by decide

end SqlDump.Rule
