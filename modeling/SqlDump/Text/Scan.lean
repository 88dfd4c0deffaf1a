/-!
# Scanning a text from left to right

A pattern is asked at each place of a text, with the character before that place at hand.
Where it answers, it covers some characters and the scan goes on behind them; where it declines,
one character is kept. `pieces` lists what a scan found, `replaceAll` writes every covered part
anew, and `replaceFrom_cons_of_none` and `replaceFrom_cons_of_some` give the two steps of a scan.
-/

namespace SqlDump.Text

/-- What a pattern found at the start of a text: how many characters it covers, at least one,
and what it makes of them. -/
structure Hit (α : Type) where
  width : Nat
  value : α

/-- A pattern looks at the character before a place, if there is one, and at the text from that
place on. -/
abbrev Pattern (α : Type) := Option Char → List Char → Option (Hit α)

/-- A part of a scanned text: a character that was kept, or a hit. -/
inductive Piece (α : Type) where
  | kept (c : Char)
  | hit (value : α)

variable {α : Type}

/-- Scans on behind the character `before`, of which `skip` characters are still covered by the
last hit. The pieces found so far stand in `found`, last one first. -/
def scan (p : Pattern α) : Option Char → Nat → List (Piece α) → List Char → List (Piece α)
  | _, _, found, [] => found.reverse
  | _, skip + 1, found, c :: rest => scan p (some c) skip found rest
  | before, 0, found, c :: rest =>
    match p before (c :: rest) with
    | some h => scan p (some c) (h.width - 1) (.hit h.value :: found) rest
    | none => scan p (some c) 0 (.kept c :: found) rest

/-- The pieces of a text under a pattern, in order. -/
def pieces (p : Pattern α) (s : List Char) : List (Piece α) := scan p none 0 [] s

/-- What a piece is written as, when `write` writes the hits. -/
def Piece.text (write : α → List Char) : Piece α → List Char
  | .kept c => [c]
  | .hit a => write a

/-- The value of a hit. -/
def Piece.value? : Piece α → Option α
  | .kept _ => none
  | .hit a => some a

/-- Writes every part that a pattern covers anew, leftmost first and without overlaps. -/
def replaceAll (p : Pattern (List Char)) (s : List Char) : List Char :=
  (pieces p s).flatMap (Piece.text id)

/-- The pattern of one fixed text. -/
def literal (sought written : List Char) : Pattern (List Char) := fun _ s =>
  if sought.isPrefixOf s then some ⟨sought.length, written⟩ else none

/-! ## The steps of a scan -/

theorem scan_found (p : Pattern α) (s : List Char) : ∀ (before : Option Char) (skip : Nat)
    (found : List (Piece α)), scan p before skip found s = found.reverse ++ scan p before skip [] s := by
  induction s with
  | nil => intro before skip found; simp [scan]
  | cons c rest ih =>
    intro before skip found
    cases skip with
    | succ n => simp only [scan]; exact ih _ _ _
    | zero =>
      simp only [scan]
      cases p before (c :: rest) with
      | none => simp only []; rw [ih, ih _ _ [.kept c]]; simp
      | some h => simp only []; rw [ih, ih _ _ [.hit h.value]]; simp

/-- Covered characters are passed over one by one. -/
theorem scan_skip (p : Pattern α) (covered rest : List Char) : ∀ before : Option Char,
    scan p before covered.length [] (covered ++ rest) =
      scan p (covered.getLast?.or before) 0 [] rest := by
  induction covered with
  | nil => intro before; simp
  | cons c cs ih =>
    intro before
    simp only [List.length_cons, List.cons_append, scan]
    rw [ih]
    cases cs <;> simp [List.getLast?_cons]

/-- Where the pattern declines, the character is kept. -/
theorem scan_cons_of_none {p : Pattern α} {before : Option Char} {c : Char} {rest : List Char}
    (h : p before (c :: rest) = none) :
    scan p before 0 [] (c :: rest) = .kept c :: scan p (some c) 0 [] rest := by
  simp only [scan, h]
  rw [scan_found]
  simp

/-- Where the pattern covers some characters, the scan goes on behind them. -/
theorem scan_cons_of_some {p : Pattern α} {before : Option Char} {c : Char} {covered rest : List Char}
    {a : α} (h : p before (c :: (covered ++ rest)) = some ⟨covered.length + 1, a⟩) :
    scan p before 0 [] (c :: (covered ++ rest)) =
      .hit a :: scan p (covered.getLast?.or (some c)) 0 [] rest := by
  simp only [scan, h, Nat.add_sub_cancel]
  rw [scan_found, scan_skip]
  simp

/-- What `replaceAll` writes for the text behind the character `before`. -/
def replaceFrom (p : Pattern (List Char)) (before : Option Char) (s : List Char) : List Char :=
  (scan p before 0 [] s).flatMap (Piece.text id)

theorem replaceAll_eq_replaceFrom (p : Pattern (List Char)) (s : List Char) :
    replaceAll p s = replaceFrom p none s := rfl

@[simp] theorem replaceFrom_nil (p : Pattern (List Char)) (before : Option Char) :
    replaceFrom p before [] = [] := rfl

/-- Where the pattern declines, `replaceAll` keeps the character. -/
theorem replaceFrom_cons_of_none {p : Pattern (List Char)} {before : Option Char} {c : Char}
    {rest : List Char} (h : p before (c :: rest) = none) :
    replaceFrom p before (c :: rest) = c :: replaceFrom p (some c) rest := by
  simp [replaceFrom, scan_cons_of_none h, Piece.text]

/-- Where the pattern covers some characters, `replaceAll` writes them anew. -/
theorem replaceFrom_cons_of_some {p : Pattern (List Char)} {before : Option Char} {c : Char}
    {covered rest out : List Char}
    (h : p before (c :: (covered ++ rest)) = some ⟨covered.length + 1, out⟩) :
    replaceFrom p before (c :: (covered ++ rest)) =
      out ++ replaceFrom p (covered.getLast?.or (some c)) rest := by
  simp [replaceFrom, scan_cons_of_some h, Piece.text]

end SqlDump.Text
