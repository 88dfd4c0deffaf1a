import SqlDump.Proofs.Text.Words
/-!
# The atoms of a text

Values stand between commas and parentheses. `atoms` cuts a text at each of these delimiters, and a
`Sweep` goes through the atoms from left to right and writes each of them by what it remembers of
those before. Two facts carry the rules over values: a sweep keeps the delimiters, so that its
result falls apart at the same places (`Sweep.atoms_apply`), and two sweeps that cannot see each
other's writing may change places (`Sweep.Independent.apply_comm`).
-/

namespace SqlDump.Text

/-- The characters that values stand between. -/
def isDelimiter (c : Char) : Bool := c == ',' || c == '(' || c == ')'

/-- A text without delimiters. -/
def Plain (w : List Char) : Prop := ∀ c ∈ w, isDelimiter c = false

instance (w : List Char) : Decidable (Plain w) :=
  List.decidableBAll (fun c => isDelimiter c = false) w

/-- A longest part of a text without delimiters, with the delimiters beside it. There is none beside
the start and the end of the text. -/
structure Atom where
  before : Option Char
  text : List Char
  behind : Option Char
deriving DecidableEq, Repr

/-- The atoms of a text behind the delimiter `before`. The part of the first one that stands before
the text is `text`. -/
def atomsFrom : (before : Option Char) → (text : List Char) → List Char → List Atom
  | before, text, [] => [⟨before, text, none⟩]
  | before, text, c :: s =>
    if isDelimiter c then ⟨before, text, some c⟩ :: atomsFrom (some c) [] s
    else atomsFrom before (text ++ [c]) s

/-- The atoms of a text, in order. -/
def atoms (s : List Char) : List Atom := atomsFrom none [] s

/-- The text of some atoms, each with the delimiter behind it. -/
def joinAtoms (l : List Atom) : List Char := l.flatMap fun a => a.text ++ a.behind.toList

/-- The delimiters of a text, in order. -/
def delimiters (s : List Char) : List Char := s.filter isDelimiter

/-! ## Taking a text apart at its delimiters -/

theorem atom_induction {P : List Char → Prop} (last : ∀ w, Plain w → P w)
    (cons : ∀ w c s, Plain w → isDelimiter c = true → P s → P (w ++ c :: s)) (s : List Char) : P s := by
  apply span_induction fun c => !isDelimiter c
  · intro w hw
    exact last w fun c hc => by simpa using hw c hc
  · intro w c s hw hc ih
    exact cons w c s (fun d hd => by simpa using hw d hd) (by simpa using hc) ih

theorem atomsFrom_append (before : Option Char) {w : List Char} (s : List Char) (hw : Plain w) :
    ∀ text, atomsFrom before text (w ++ s) = atomsFrom before (text ++ w) s := by
  induction w with
  | nil => simp
  | cons c w ih =>
    intro text
    have hc : isDelimiter c = false := hw c (by simp)
    simp [atomsFrom, hc, ih fun d hd => hw d (by simp [hd])]

theorem atomsFrom_plain (before : Option Char) {w : List Char} (hw : Plain w) :
    atomsFrom before [] w = [⟨before, w, none⟩] := by
  simpa [atomsFrom] using atomsFrom_append before [] hw []

theorem atomsFrom_cons (before : Option Char) {w : List Char} {c : Char} (s : List Char) (hw : Plain w)
    (hc : isDelimiter c = true) :
    atomsFrom before [] (w ++ c :: s) = ⟨before, w, some c⟩ :: atomsFrom (some c) [] s := by
  simp [atomsFrom_append before _ hw, atomsFrom, hc]

@[simp] theorem joinAtoms_cons (a : Atom) (l : List Atom) :
    joinAtoms (a :: l) = a.text ++ (a.behind.toList ++ joinAtoms l) := by
  simp [joinAtoms]

@[simp] theorem joinAtoms_nil : joinAtoms [] = [] := rfl

theorem delimiters_plain {w : List Char} (hw : Plain w) : delimiters w = [] :=
  List.filter_eq_nil_iff.2 fun c hc => by simp [hw c hc]

theorem delimiters_cons {w : List Char} {c : Char} (s : List Char) (hw : Plain w)
    (hc : isDelimiter c = true) : delimiters (w ++ c :: s) = c :: delimiters s := by
  unfold delimiters
  rw [List.filter_append, List.filter_cons_of_pos hc]
  exact congrArg (· ++ _) (delimiters_plain hw)

/-- Two texts that start alike up to their first delimiters are equal up to there. -/
theorem plain_append_cons_inj {w v : List Char} {c d : Char} {s t : List Char} (hw : Plain w) (hv : Plain v)
    (hc : isDelimiter c = true) (hd : isDelimiter d = true) (h : w ++ c :: s = v ++ d :: t) :
    w = v ∧ c = d ∧ s = t := by
  apply append_cons_inj_of_class (q := fun c => !isDelimiter c) _ _ _ _ h
  · simpa [Plain] using hw
  · simpa [Plain] using hv
  · simpa using hc
  · simpa using hd

theorem isWord_of_isDelimiter {c : Char} (hc : isDelimiter c = true) : isWord c = false := by
  simp only [isDelimiter, Bool.or_eq_true, beq_iff_eq] at hc
  rcases hc with (rfl | rfl) | rfl <;> decide

theorem words_eq_flatMap_atomsFrom (s : List Char) : ∀ before,
    words s = (atomsFrom before [] s).flatMap fun a => words a.text := by
  induction s using atom_induction with
  | last w hw =>
    intro before
    simp [atomsFrom_plain before hw]
  | cons w c s hw hc ih =>
    intro before
    rw [atomsFrom_cons before s hw hc, words_append_cons w s (isWord_of_isDelimiter hc), ih (some c)]
    rfl

/-- No word reaches over a delimiter. -/
theorem words_eq_flatMap_atoms (s : List Char) : words s = (atoms s).flatMap fun a => words a.text :=
  words_eq_flatMap_atomsFrom s none

/-! ## Sweeps -/

variable {σ τ : Type}

/-- A way to go through the atoms of a text: what is remembered behind an atom, and what is written
for it. No delimiter is written. -/
structure Sweep (σ : Type) where
  next : σ → Atom → σ
  write : σ → Atom → List Char
  plain : ∀ state a, Plain a.text → Plain (write state a)

/-- An atom with another text. -/
def Atom.withText (a : Atom) (text : List Char) : Atom := { a with text := text }

@[simp] theorem Atom.withText_before (a : Atom) (w : List Char) : (a.withText w).before = a.before := rfl

@[simp] theorem Atom.withText_behind (a : Atom) (w : List Char) : (a.withText w).behind = a.behind := rfl

@[simp] theorem Atom.withText_text (a : Atom) (w : List Char) : (a.withText w).text = w := rfl

@[simp] theorem Atom.withText_self (a : Atom) : a.withText a.text = a := rfl

namespace Sweep

variable (m : Sweep σ)

/-- The atoms that a sweep writes. -/
def run : σ → List Atom → List Atom
  | _, [] => []
  | state, a :: l => a.withText (m.write state a) :: run (m.next state a) l

/-- What a sweep remembers behind some atoms. -/
def after (state : σ) (l : List Atom) : σ := l.foldl m.next state

/-- Writes the atoms of a text anew. -/
def apply (state : σ) (s : List Char) : List Char := joinAtoms (m.run state (atoms s))

@[simp] theorem run_nil (state : σ) : m.run state [] = [] := rfl

@[simp] theorem run_cons (state : σ) (a : Atom) (l : List Atom) :
    m.run state (a :: l) = a.withText (m.write state a) :: m.run (m.next state a) l := rfl

@[simp] theorem after_nil (state : σ) : m.after state [] = state := rfl

@[simp] theorem after_cons (state : σ) (a : Atom) (l : List Atom) :
    m.after state (a :: l) = m.after (m.next state a) l := rfl

theorem after_concat (state : σ) (l : List Atom) (a : Atom) :
    m.after state (l ++ [a]) = m.next (m.after state l) a := by
  simp [after]

/-- Each atom is written by what is remembered of those before it. -/
theorem getElem?_run (l : List Atom) : ∀ (state : σ) (i : Nat),
    (m.run state l)[i]? = l[i]?.map fun a => a.withText (m.write (m.after state (l.take i)) a) := by
  induction l with
  | nil => intro state i; rfl
  | cons a l ih =>
    intro state i
    cases i with
    | zero => rfl
    | succ i => simp [ih]

theorem take_run (l : List Atom) : ∀ (state : σ) (i : Nat), (m.run state l).take i = m.run state (l.take i) := by
  induction l with
  | nil => intro state i; simp
  | cons a l ih =>
    intro state i
    cases i with
    | zero => rfl
    | succ i => simp [ih]

theorem atomsFrom_run (s : List Char) : ∀ (before : Option Char) (state : σ),
    atomsFrom before [] (joinAtoms (m.run state (atomsFrom before [] s))) =
      m.run state (atomsFrom before [] s) := by
  induction s using atom_induction with
  | last w hw =>
    intro before state
    have hplain := m.plain state ⟨before, w, none⟩ hw
    simp [atomsFrom_plain before hw, atomsFrom_plain before hplain, Atom.withText]
  | cons w c s hw hc ih =>
    intro before state
    have hplain := m.plain state ⟨before, w, some c⟩ hw
    simp [atomsFrom_cons before _ hw hc, atomsFrom_cons before _ hplain hc, ih, Atom.withText]

/-- The result of a sweep falls apart into the atoms that were written. -/
theorem atoms_apply (state : σ) (s : List Char) : atoms (m.apply state s) = m.run state (atoms s) :=
  m.atomsFrom_run s none state

theorem delimiters_joinAtoms_run (s : List Char) : ∀ (before : Option Char) (state : σ),
    delimiters (joinAtoms (m.run state (atomsFrom before [] s))) = delimiters s := by
  induction s using atom_induction with
  | last w hw =>
    intro before state
    have hplain := m.plain state ⟨before, w, none⟩ hw
    simp [atomsFrom_plain before hw, delimiters_plain hw, delimiters_plain hplain]
  | cons w c s hw hc ih =>
    intro before state
    have hplain := m.plain state ⟨before, w, some c⟩ hw
    simp [atomsFrom_cons before _ hw hc, delimiters_cons _ hw hc, delimiters_cons _ hplain hc, ih]

/-- A sweep keeps the delimiters. -/
theorem delimiters_apply (state : σ) (s : List Char) : delimiters (m.apply state s) = delimiters s :=
  m.delimiters_joinAtoms_run s none state

theorem map_run {β : Type} (g : Atom → β) (hg : ∀ state a, g (a.withText (m.write state a)) = g a)
    (l : List Atom) : ∀ state, (m.run state l).map g = l.map g := by
  induction l with
  | nil => intro state; rfl
  | cons a l ih =>
    intro state
    simp [hg, ih]

/-! ### Sweeps that may change places -/

/-- Neither sweep sees what the other one writes, and one atom comes out the same in both orders. -/
structure Independent (m : Sweep σ) (k : Sweep τ) : Prop where
  next_left : ∀ state state' (a : Atom), m.next state (a.withText (k.write state' a)) = m.next state a
  next_right : ∀ state state' (a : Atom), k.next state' (a.withText (m.write state a)) = k.next state' a
  write_comm : ∀ state state' (a : Atom), m.write state (a.withText (k.write state' a)) =
    k.write state' (a.withText (m.write state a))

variable {m} {k : Sweep τ}

theorem Independent.run_comm (h : m.Independent k) (l : List Atom) : ∀ state state',
    m.run state (k.run state' l) = k.run state' (m.run state l) := by
  induction l with
  | nil => intro state state'; rfl
  | cons a l ih =>
    intro state state'
    simp only [run_cons, h.next_left, h.next_right, ih]
    exact congrArg (fun w => a.withText w :: _) (h.write_comm state state' a)

theorem Independent.apply_comm (h : m.Independent k) (state : σ) (state' : τ) (s : List Char) :
    m.apply state (k.apply state' s) = k.apply state' (m.apply state s) := by
  rw [apply, atoms_apply, h.run_comm, ← atoms_apply, ← apply]

/-- What one of two independent sweeps remembers does not hang on the other one. -/
theorem Independent.after_run (h : m.Independent k) (l : List Atom) : ∀ state state',
    m.after state (k.run state' l) = m.after state l := by
  induction l with
  | nil => intro state state'; rfl
  | cons a l ih =>
    intro state state'
    simp only [run_cons, after_cons, h.next_left, ih]

end Sweep

/-! ## Words between delimiters -/

section Words

variable {f : List Char → List Char} (hf : ∀ w, Plain w → Plain (f w))

include hf in
theorem plain_mapWords (s : List Char) : Plain s → Plain (mapWords f s) := by
  induction s using word_induction with
  | word w hw =>
    intro h
    rw [mapWords_word f hw]
    exact hf w h
  | cons w c s hw hc ih =>
    intro h d hd
    rw [mapWords_append_cons f s hw hc, List.mem_append, List.mem_cons] at hd
    rcases hd with hd | rfl | hd
    · exact hf w (fun e he => h e (List.mem_append_left _ he)) d hd
    · exact h d (by simp)
    · exact ih (fun e he => h e (by simp [he])) d hd

/-- Rewrites the words of each atom. -/
def wordSweep : Sweep Unit where
  next _ _ := ()
  write _ a := mapWords f a.text
  plain _ a := plain_mapWords hf a.text

theorem joinAtoms_run_wordSweep (s : List Char) : ∀ before,
    joinAtoms ((wordSweep hf).run () (atomsFrom before [] s)) = mapWords f s := by
  induction s using atom_induction with
  | last w hw =>
    intro before
    simp [atomsFrom_plain before hw, wordSweep]
  | cons w c s hw hc ih =>
    intro before
    have hjoin := ih (some c)
    simp [atomsFrom_cons before s hw hc, mapWords_append_of_not_isWord f w s (isWord_of_isDelimiter hc),
      ← hjoin, wordSweep]

/-- A rule over words is a sweep. -/
theorem mapWords_eq_apply (s : List Char) : mapWords f s = (wordSweep hf).apply () s :=
  (joinAtoms_run_wordSweep hf s none).symm

end Words

end SqlDump.Text
