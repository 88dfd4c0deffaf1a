import SqlDump.Proofs.Text.Occurrence
import SqlDump.Proofs.Text.Words
import SqlDump.Text.Newline
/-!
# Rules that work line by line

`Linewise` says that a rule rewrites each line on its own. Patterns that neither look beyond a line
end nor cover one make such rules (`linewise_replaceAll`), and so do rewritings of words. Their
composition acts on the lines of a text as on the text (`Linewise.joinLines`).
-/

namespace SqlDump.Text

/-! ## Splitting and joining -/

theorem splitLines_eq (s : List Char) : splitLines s = s.splitOn '\n' := by
  induction s with
  | nil => rfl
  | cons c s ih =>
    obtain ⟨line, more, hs⟩ := List.exists_cons_of_ne_nil (List.splitOn_ne_nil '\n' s)
    rw [List.splitOn_cons_eq_if_modifyHead, hs]
    rw [hs] at ih
    unfold splitLines at ih ⊢
    rw [List.foldr_cons, ih]
    simp

theorem splitLines_line {line : List Char} (h : '\n' ∉ line) : splitLines line = [line] := by
  rw [splitLines_eq]
  exact List.splitOn_eq_singleton h

/-- A line feed ends a line, whatever stands before and behind it. -/
theorem splitLines_append_lf (s t : List Char) : splitLines (s ++ '\n' :: t) = splitLines s ++ splitLines t := by
  rw [splitLines_eq, splitLines_eq, splitLines_eq]
  exact List.splitOnP_append_cons s t (by simp)

theorem splitLines_append_cons {line : List Char} (h : '\n' ∉ line) (s : List Char) :
    splitLines (line ++ '\n' :: s) = line :: splitLines s := by
  rw [splitLines_append_lf, splitLines_line h]
  rfl

theorem splitLines_cons {c : Char} (hc : c ≠ '\n') {s line : List Char} {more : List (List Char)}
    (hs : splitLines s = line :: more) : splitLines (c :: s) = (c :: line) :: more := by
  rw [splitLines_eq] at hs ⊢
  rw [List.splitOn_cons_eq_if_modifyHead, hs]
  simp [hc]

theorem splitLines_ne_nil (s : List Char) : splitLines s ≠ [] := by
  rw [splitLines_eq]
  exact List.splitOn_ne_nil '\n' s

theorem splitLines_append {front : List Char} (hlf : '\n' ∉ front) {s line : List Char}
    {more : List (List Char)} (hs : splitLines s = line :: more) :
    splitLines (front ++ s) = (front ++ line) :: more := by
  induction front with
  | nil => exact hs
  | cons c front ih =>
    rw [List.mem_cons, not_or] at hlf
    exact splitLines_cons (Ne.symm hlf.1) (ih hlf.2)

theorem forall₂_splitLines_append {R : List Char → List Char → Prop} {front front' s t : List Char}
    (hlf : '\n' ∉ front) (hlf' : '\n' ∉ front')
    (hR : ∀ {line line'}, R line line' → R (front ++ line) (front' ++ line'))
    (h : List.Forall₂ R (splitLines s) (splitLines t)) :
    List.Forall₂ R (splitLines (front ++ s)) (splitLines (front' ++ t)) := by
  obtain ⟨line, more, hs⟩ := List.exists_cons_of_ne_nil (splitLines_ne_nil s)
  obtain ⟨line', more', ht⟩ := List.exists_cons_of_ne_nil (splitLines_ne_nil t)
  rw [hs, ht, List.forall₂_cons] at h
  rw [splitLines_append hlf hs, splitLines_append hlf' ht]
  exact .cons (hR h.1) h.2

theorem joinLines_splitLines (s : List Char) : joinLines (splitLines s) = s := by
  rw [splitLines_eq]
  exact List.intercalate_splitOn '\n'

theorem splitLines_joinLines {lines : List (List Char)} (h : ∀ line ∈ lines, '\n' ∉ line)
    (hne : lines ≠ []) : splitLines (joinLines lines) = lines := by
  rw [splitLines_eq]
  exact List.splitOn_intercalate '\n' h hne

theorem joinLines_singleton (line : List Char) : joinLines [line] = line :=
  List.intercalate_singleton

theorem joinLines_cons (line : List Char) {lines : List (List Char)} (hne : lines ≠ []) :
    joinLines (line :: lines) = line ++ '\n' :: joinLines lines := by
  unfold joinLines
  rw [List.intercalate_cons_of_ne_nil hne]
  simp

theorem joinLines_append (front line : List Char) (more : List (List Char)) :
    joinLines ((front ++ line) :: more) = front ++ joinLines (line :: more) := by
  by_cases hne : more = []
  · simp [hne, joinLines_singleton]
  · rw [joinLines_cons _ hne, joinLines_cons _ hne, List.append_assoc]

theorem prefix_of_splitLines {s line : List Char} {more : List (List Char)}
    (hs : splitLines s = line :: more) : line <+: s := by
  have h := joinLines_append line [] more
  rw [List.append_nil, ← hs, joinLines_splitLines] at h
  exact ⟨_, h.symm⟩

theorem line_induction {P : List Char → Prop} (line : ∀ l, '\n' ∉ l → P l)
    (cons : ∀ l s, '\n' ∉ l → P s → P (l ++ '\n' :: s)) (s : List Char) : P s := by
  have hline : ∀ {l : List Char}, (∀ c ∈ l, (c != '\n') = true) → '\n' ∉ l :=
    fun hl h => by simpa using hl _ h
  refine span_induction (· != '\n') (fun l hl => line l (hline hl)) ?_ s
  intro l c s hl hc hs
  have hc : c = '\n' := by simpa using hc
  exact hc ▸ cons l s (hline hl) hs

theorem not_mem_of_mem_splitLines {s line : List Char} (h : line ∈ splitLines s) : '\n' ∉ line := by
  induction s using line_induction with
  | line l hl =>
    rw [splitLines_line hl, List.mem_singleton] at h
    exact h ▸ hl
  | cons l s hl ih =>
    rw [splitLines_append_cons hl, List.mem_cons] at h
    rcases h with rfl | h
    · exact hl
    · exact ih h

theorem infix_of_mem_splitLines {s line : List Char} (h : line ∈ splitLines s) : line <:+: s := by
  induction s using line_induction with
  | line l hl =>
    rw [splitLines_line hl, List.mem_singleton] at h
    rw [h]
  | cons l s hl ih =>
    rw [splitLines_append_cons hl, List.mem_cons] at h
    rcases h with rfl | h
    · exact (List.prefix_append line _).isInfix
    · exact (ih h).trans ((List.suffix_cons _ s).trans (List.suffix_append l _)).isInfix

theorem words_joinLines (lines : List (List Char)) : words (joinLines lines) = lines.flatMap words := by
  have hlf : isWord '\n' = false := by decide
  induction lines with
  | nil => rfl
  | cons line lines ih =>
    by_cases hne : lines = []
    · simp [hne, joinLines_singleton]
    · rw [joinLines_cons line hne, words_append_cons _ _ hlf, ih, List.flatMap_cons]

/-! ## Rules on lines -/

/-- The rule rewrites each line on its own, to one line. -/
structure Linewise (rule : List Char → List Char) : Prop where
  nil : rule [] = []
  append : ∀ {line} s, '\n' ∉ line → rule (line ++ '\n' :: s) = rule line ++ '\n' :: rule s
  line : ∀ {line}, '\n' ∉ line → '\n' ∉ rule line

namespace Linewise

variable {rule rule' : List Char → List Char}

theorem comp (h' : Linewise rule') (h : Linewise rule) : Linewise fun s => rule' (rule s) where
  nil := by rw [h.nil, h'.nil]
  append s hline := by rw [h.append s hline, h'.append _ (h.line hline)]
  line hline := h'.line (h.line hline)

theorem joinLines (h : Linewise rule) {lines : List (List Char)} (hlines : ∀ line ∈ lines, '\n' ∉ line) :
    rule (joinLines lines) = Text.joinLines (lines.map rule) := by
  induction lines with
  | nil => exact h.nil
  | cons line lines ih =>
    have ih := ih fun l hl => hlines l (by simp [hl])
    by_cases hne : lines = []
    · simp [hne, joinLines_singleton]
    · rw [joinLines_cons line hne, h.append _ (hlines line (by simp)), ih, List.map_cons,
        joinLines_cons _ (by simpa using hne)]

end Linewise

/-- Edits that write no character of a kind that they did not find bring none in. -/
theorem Edits.not_mem_of_old {Keep : KeepAt} {Edit : EditAt} {before : Option Char} {s t : List Char} {c : Char}
    (h : Edits Keep Edit before s t) (hnew : ∀ {b old new s}, Edit b old new s → c ∉ old → c ∉ new)
    (hs : c ∉ s) : c ∉ t := by
  induction h with
  | nil => exact hs
  | keep _ _ ih =>
    rw [List.mem_cons, not_or] at hs ⊢
    exact ⟨hs.1, ih hs.2⟩
  | edit e _ ih =>
    rw [List.mem_append, not_or] at hs ⊢
    exact ⟨hnew e hs.1, ih hs.2⟩

theorem Edits.not_mem {Keep : KeepAt} {Edit : EditAt} {before : Option Char} {s t : List Char} {c : Char}
    (h : Edits Keep Edit before s t) (hnew : ∀ {b old new s}, Edit b old new s → c ∉ new)
    (hs : c ∉ s) : c ∉ t :=
  h.not_mem_of_old (fun e _ => hnew e) hs

/-- The pattern covers no line feed and takes one for the start or the end of the text. -/
structure LineLocal (p : Pattern (List Char)) : Prop where
  start : ∀ s, p (some '\n') s = p none s
  declines : ∀ before s, p before ('\n' :: s) = none
  stops : ∀ before {line} s, '\n' ∉ line → p before (line ++ '\n' :: s) = p before line

section LineLocal

variable {p : Pattern (List Char)} {Edit : EditAt}

theorem replaceFrom_append_line (hp : LineLocal p) (hfind : p.Finds Edit) (s : List Char) {line : List Char}
    (hline : '\n' ∉ line) : ∀ before,
    replaceFrom p before (line ++ '\n' :: s) = replaceFrom p before line ++ '\n' :: replaceAll p s := by
  intro before
  have hs : replaceFrom p (some '\n') s = replaceAll p s := by
    rw [replaceAll_eq_replaceFrom]
    cases s with
    | nil => rfl
    | cons c s => simp only [replaceFrom, scan, hp.start]
  have hstops (b : Option Char) {v : List Char} (hv : v <:+ line) (_ : v ≠ []) :
      p b (v ++ '\n' :: s) = p b v := hp.stops b s fun hmem => hline (hv.subset hmem)
  rw [replaceFrom_append hfind hstops, replaceFrom_cons_of_none (hp.declines _ _), hs]

theorem linewise_replaceAll (hp : LineLocal p) (hfind : p.Finds Edit)
    (hnew : ∀ {b old new s}, Edit b old new s → '\n' ∉ new) : Linewise (replaceAll p) where
  nil := rfl
  append s hline := replaceFrom_append_line hp hfind s hline none
  line hline := (edits_replaceAll hfind _).not_mem hnew hline

end LineLocal

theorem isPrefixOf_append_line {f : List Char} (hf : '\n' ∉ f) (line s : List Char) :
    f.isPrefixOf (line ++ '\n' :: s) = f.isPrefixOf line := by
  rw [Bool.eq_iff_iff, List.isPrefixOf_iff_prefix, List.isPrefixOf_iff_prefix]
  constructor
  · rintro ⟨v, hv⟩
    rcases List.append_eq_append_iff.1 hv with ⟨a, rfl, -⟩ | ⟨a, rfl, ha⟩
    · exact List.prefix_append f a
    · cases a with
      | nil => exact ⟨[], by simp⟩
      | cons c a =>
        obtain ⟨rfl, -⟩ := List.cons.inj ha
        exact absurd (by simp) hf
  · exact fun h => h.trans (List.prefix_append line _)

theorem takeWhile_append_line {q : Char → Bool} (hq : q '\n' = false) (line s : List Char) :
    (line ++ '\n' :: s).takeWhile q = line.takeWhile q := by
  induction line with
  | nil => simp [hq]
  | cons c line ih => simp only [List.cons_append, List.takeWhile_cons, ih]

theorem lineLocal_literal {sought : List Char} (written : List Char) (hne : sought ≠ [])
    (hlf : '\n' ∉ sought) : LineLocal (literal sought written) where
  start _ := rfl
  declines before s := by
    have := isPrefixOf_append_line hlf [] s
    rw [List.nil_append] at this
    simp [literal, this, hne]
  stops before line s _ := by
    simp only [literal, isPrefixOf_append_line hlf]

theorem linewise_literal {sought written : List Char} (hne : sought ≠ []) (hlf : '\n' ∉ sought)
    (hlf' : '\n' ∉ written) : Linewise (replaceAll (literal sought written)) :=
  linewise_replaceAll (lineLocal_literal written hne hlf) (literal_finds written hne)
    (by rintro b _ _ s ⟨-, rfl⟩; exact hlf')

end SqlDump.Text
