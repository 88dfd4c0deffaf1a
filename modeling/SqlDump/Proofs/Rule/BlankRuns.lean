import SqlDump.Proofs.Rule.Border
/-!
# Runs of blanks

The rule for blank lines looks at one run of blanks at a time: what stands between the first and the
last line feed of the run goes, and the rest stays (`collapseBlankLines_runs`). So the lines with
something in them are kept as they are, and those that stood together still do.
-/

namespace SqlDump.Rule

open Text

/-- The longest runs of blanks and of other characters, in order. -/
def blankRuns (s : List Char) : List (List Char) := s.splitBy fun c d => isBlank c == isBlank d

/-- What is left of a run: with two line feeds or more, what stands before the first and behind the
last of them, and an empty line between. -/
def collapseRun (run : List Char) : List Char :=
  if run.count '\n' ≤ 1 then run
  else run.takeWhile (· != '\n') ++ '\n' :: '\n' :: run.rtakeWhile (· != '\n')

/-! ## One run -/

theorem collapseRun_no_line {run : List Char} (h : '\n' ∉ run) : collapseRun run = run := by
  simp [collapseRun, List.count_eq_zero_of_not_mem h]

theorem collapseRun_one_line {a c : List Char} (ha : '\n' ∉ a) (hc : '\n' ∉ c) :
    collapseRun (a ++ '\n' :: c) = a ++ '\n' :: c := by
  simp [collapseRun, List.count_eq_zero_of_not_mem ha, List.count_eq_zero_of_not_mem hc]

theorem collapseRun_lines {a b c : List Char} (ha : '\n' ∉ a) (hc : '\n' ∉ c) :
    collapseRun (a ++ '\n' :: (b ++ '\n' :: c)) = a ++ '\n' :: '\n' :: c := by
  have hfirst : (a ++ '\n' :: (b ++ '\n' :: c)).takeWhile (· != '\n') = a :=
    takeWhile_append_cons_of_not_mem ha _
  have hlast : (a ++ '\n' :: (b ++ '\n' :: c)).rtakeWhile (· != '\n') = c := by
    have hrev : '\n' ∉ c.reverse := fun h => hc (List.mem_reverse.1 h)
    simp [List.rtakeWhile, takeWhile_append_cons_of_not_mem hrev]
  have hcount : ¬ (a ++ '\n' :: (b ++ '\n' :: c)).count '\n' ≤ 1 := by
    simp
    omega
  rw [collapseRun, if_neg hcount, hfirst, hlast]

/-- The blanks before the first line feed are kept. -/
theorem collapseBlankLines_before {a : List Char} (ha : '\n' ∉ a) (s : List Char) :
    collapseBlankLines (a ++ s) = a ++ collapseBlankLines s :=
  blankLines_opens.replaceAll_append (fun h => ha (h.subset (by simp))) (.singleton '\n' a s)

theorem collapseBlankLines_one_line {c : List Char} (hc : '\n' ∉ c) :
    collapseBlankLines ('\n' :: c) = '\n' :: c := by
  have hdecl : blankLines none ('\n' :: c) = none := by
    by_contra h
    obtain ⟨hit, hhit⟩ := Option.ne_none_iff_exists'.1 h
    obtain ⟨_, rest, hs, -, -, blanks, -, -, rfl, -⟩ := blankLines_finds _ _ _ hhit
    obtain ⟨-, rfl⟩ := List.cons.inj hs
    exact hc (by simp)
  have hkept := blankLines_opens.replaceAll_of_declines hdecl
  exact hkept.trans (congrArg ('\n' :: ·) (collapseBlankLines_eq_self hc))

theorem collapseBlankLines_lines {b c : List Char} (hb : ∀ d ∈ b, isBlank d = true) (hc : '\n' ∉ c) :
    collapseBlankLines ('\n' :: (b ++ '\n' :: c)) = '\n' :: '\n' :: c := by
  have hrest : '\n' ∉ c.takeWhile isBlank := fun h => hc ((List.takeWhile_prefix isBlank).subset h)
  have hhit := blankLines_opens.replaceAll_hit (by simp)
    (blankLines_hits ⟨b, hb, hrest, rfl, rfl⟩)
  unfold collapseBlankLines at hhit ⊢
  have hkept : replaceAll blankLines c = c := collapseBlankLines_eq_self hc
  rw [hkept] at hhit
  simpa using hhit

theorem collapseBlankLines_run {run : List Char} (h : ∀ c ∈ run, isBlank c = true) :
    collapseBlankLines run = collapseRun run := by
  by_cases hlf : '\n' ∈ run
  · obtain ⟨a, rest, rfl, ha⟩ := List.eq_append_cons_of_mem hlf
    rw [collapseBlankLines_before ha]
    rcases exists_lastLine rest with ⟨hrest, -⟩ | ⟨b, c, rfl, hc, -⟩
    · rw [collapseBlankLines_one_line hrest, collapseRun_one_line ha hrest]
    · have hb : ∀ d ∈ b, isBlank d = true := fun d hd => h d (by simp [hd])
      rw [collapseBlankLines_lines hb hc, collapseRun_lines ha hc]
  · rw [collapseBlankLines_eq_self hlf, collapseRun_no_line hlf]

/-! ## All runs -/

/-- A run holds blanks only, or none. -/
theorem blank_or_text_of_isChain {run : List Char} (h : run.IsChain fun c d => (isBlank c == isBlank d) = true) :
    (∀ c ∈ run, isBlank c = true) ∨ ∀ c ∈ run, isBlank c = false := by
  induction run with
  | nil => exact .inl (by simp)
  | cons c run ih =>
    obtain ⟨hhead, hrun⟩ := List.isChain_cons.1 h
    cases run with
    | nil => simp
    | cons d run =>
      have hcd : isBlank c = isBlank d := by simpa using hhead d (by simp)
      rcases ih hrun with hblank | htext
      · exact .inl (List.forall_mem_cons.2 ⟨hcd.trans (hblank d List.mem_cons_self), hblank⟩)
      · exact .inr (List.forall_mem_cons.2 ⟨hcd.trans (htext d List.mem_cons_self), htext⟩)

/-- Runs that do not go on into each other are collapsed one by one. -/
theorem collapseBlankLines_flatten {runs : List (List Char)}
    (hruns : ∀ run ∈ runs, (∀ c ∈ run, isBlank c = true) ∨ ∀ c ∈ run, isBlank c = false)
    (hborders : runs.IsChain fun a b => ∃ ha hb, (isBlank (a.getLast ha) == isBlank (b.head hb)) = false) :
    collapseBlankLines runs.flatten = runs.flatMap collapseRun := by
  induction runs with
  | nil => rfl
  | cons run runs ih =>
    obtain ⟨hrun, hruns⟩ := List.forall_mem_cons.1 hruns
    have hrest := ih hruns hborders.tail
    rw [List.flatten_cons, List.flatMap_cons, ← hrest]
    rcases hrun with hblank | htext
    · have hstop : runs.flatten.head?.any isBlank = false := by
        cases runs with
        | nil => rfl
        | cons next runs =>
          obtain ⟨ha, hb, hborder⟩ := (List.isChain_cons_cons.1 hborders).1
          obtain ⟨c, next, rfl⟩ := List.exists_cons_of_ne_nil hb
          rw [hblank _ (List.getLast_mem ha)] at hborder
          simpa using hborder
      rw [collapseBlankLines_append hstop, collapseBlankLines_run hblank]
    · have hlf : '\n' ∉ run := fun h => Bool.eq_false_iff.1 (htext _ h) isBlank_lf
      rw [collapseBlankLines_before hlf, collapseRun_no_line hlf]

theorem collapseBlankLines_eq (s : List Char) : collapseBlankLines s = (blankRuns s).flatMap collapseRun := by
  have hruns : ∀ run ∈ blankRuns s, (∀ c ∈ run, isBlank c = true) ∨ ∀ c ∈ run, isBlank c = false :=
    fun run hrun => blank_or_text_of_isChain (List.isChain_of_mem_splitBy hrun)
  have hborders := List.isChain_getLast_head_splitBy (fun c d => isBlank c == isBlank d) s
  have hflatten := collapseBlankLines_flatten hruns hborders
  rwa [blankRuns, List.flatten_splitBy] at hflatten

/-- What is collapsed already is kept. -/
theorem collapseBlankLines_of_bare {s : List Char} (h : BlankLinesBare s) : collapseBlankLines s = s := by
  refine (edits_collapseBlankLines s).eq_of_unchanged ?_
  rintro b _ _ v ⟨u, rfl⟩ ⟨blanks, hall, -, rfl, rfl⟩
  rw [h u blanks v (by simp) hall]
  rfl

/-! ## The lines of a text -/

/-- The lines that hold more than blanks, each with whether a blank line stands right before it. `gap`
says so for the first one. -/
def textLinesFrom (gap : Bool) : List (List Char) → List (Bool × List Char)
  | [] => []
  | line :: lines =>
    if line.all isBlank then textLinesFrom true lines else (gap, line) :: textLinesFrom false lines

/-- The lines of a text that hold more than blanks, and which of them blank lines keep apart. -/
def textLines (s : List Char) : List (Bool × List Char) := textLinesFrom false (splitLines s)

theorem textLinesFrom_append_congr {lines lines' : List (List Char)}
    (h : ∀ gap, textLinesFrom gap lines = textLinesFrom gap lines') (front : List (List Char)) :
    ∀ gap, textLinesFrom gap (front ++ lines) = textLinesFrom gap (front ++ lines') := by
  induction front with
  | nil => exact h
  | cons line front ih =>
    intro gap
    simp only [List.cons_append, textLinesFrom, ih]

/-- How many blank lines stand together makes no difference. -/
theorem textLinesFrom_blank {front : List (List Char)} (hne : front ≠ [])
    (hfront : ∀ line ∈ front, line.all isBlank = true) (lines : List (List Char)) :
    ∀ gap, textLinesFrom gap (front ++ lines) = textLinesFrom true lines := by
  induction front with
  | nil => exact absurd rfl hne
  | cons line front ih =>
    intro gap
    obtain ⟨hline, hfront⟩ := List.forall_mem_cons.1 hfront
    rw [List.cons_append, textLinesFrom, if_pos hline]
    by_cases hnil : front = []
    · rw [hnil, List.nil_append]
    · exact ih hnil hfront true

theorem textLinesFrom_of_edits {Keep : KeepAt} {before : Option Char} {s t : List Char}
    (h : Edits Keep BlanksCollapsed before s t) : ∀ front gap,
    textLinesFrom gap (splitLines (front ++ t)) = textLinesFrom gap (splitLines (front ++ s)) := by
  induction h with
  | nil => intro front gap; rfl
  | @keep _ c s t _ _ ih =>
    intro front gap
    simpa using ih (front ++ [c]) gap
  | @edit _ _ _ s t e _ ih =>
    intro front
    obtain ⟨blanks, hall, -, rfl, rfl⟩ := e
    have hblanks : ∀ line ∈ splitLines blanks, line.all isBlank = true := fun line hline =>
      List.all_eq_true.2 fun c hc => hall c ((infix_of_mem_splitLines hline).subset hc)
    have hlines : ∀ gap, textLinesFrom gap (splitLines [] ++ splitLines t) =
        textLinesFrom gap (splitLines blanks ++ splitLines s) := by
      intro gap
      rw [textLinesFrom_blank (splitLines_ne_nil []) (by decide),
        textLinesFrom_blank (splitLines_ne_nil blanks) hblanks]
      exact ih [] true
    have hs : front ++ ('\n' :: (blanks ++ ['\n']) ++ s) = front ++ '\n' :: (blanks ++ '\n' :: s) := by simp
    have ht : front ++ (['\n', '\n'] ++ t) = front ++ '\n' :: ([] ++ '\n' :: t) := by simp
    rw [hs, ht, splitLines_append_lf, splitLines_append_lf, splitLines_append_lf, splitLines_append_lf]
    exact textLinesFrom_append_congr hlines (splitLines front)

theorem textLines_collapseBlankLines (s : List Char) : textLines (collapseBlankLines s) = textLines s :=
  textLinesFrom_of_edits (edits_collapseBlankLines s) [] false

/-- Each run of blanks is collapsed on its own. The lines with something in them stay as they are and
stay together, between them no blank line is left but single empty ones, and doing it again changes
nothing. -/
theorem collapseBlankLines_runs (s : List Char) :
    collapseBlankLines s = (blankRuns s).flatMap collapseRun ∧
      textLines (collapseBlankLines s) = textLines s ∧
      ¬ "\n\n\n".toList <:+: collapseBlankLines s ∧
      BlankLinesBare (collapseBlankLines s) ∧
      collapseBlankLines (collapseBlankLines s) = collapseBlankLines s := by
  have hbare := blankLinesBare_collapseBlankLines s
  refine ⟨collapseBlankLines_eq s, textLines_collapseBlankLines s, ?_, hbare, collapseBlankLines_of_bare hbare⟩
  rintro ⟨u, v, huv⟩
  have hsplit : collapseBlankLines s = u ++ '\n' :: (['\n'] ++ '\n' :: v) := by
    rw [← huv]
    simp
  have hnil := hbare u ['\n'] v hsplit (by simp [isBlank_lf])
  cases hnil

example : collapseBlankLines "a \n\t\n\u00A0\n  b\n \u2028c".toList = "a \n\n  b\n \u2028c".toList := by decide

end SqlDump.Rule
