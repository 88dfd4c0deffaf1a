import SqlDump.Proofs.Text.WordPattern
import SqlDump.Rule.BlankLines
/-!
# What collapsing blank lines changes

A run of blanks keeps what stands before its first line feed and behind its last one. Since the rule
takes all line feeds of a run at once, no blank line with anything in it is left
(`blankLinesBare_collapseBlankLines`).
-/

namespace SqlDump.Rule

open Text

/-- The blanks between two line feeds go, and no further line feed follows behind blanks. -/
def BlanksCollapsed : EditAt := fun _ old new rest =>
  ∃ blanks, (∀ c ∈ blanks, isBlank c = true) ∧ '\n' ∉ rest.takeWhile isBlank ∧
    old = '\n' :: (blanks ++ ['\n']) ∧ new = ['\n', '\n']

theorem exists_lastLine (s : List Char) :
    '\n' ∉ s ∧ s.reverse.dropWhile (· != '\n') = [] ∨
    ∃ x y, s = x ++ '\n' :: y ∧ '\n' ∉ y ∧ (s.reverse.dropWhile (· != '\n')).length = x.length + 1 := by
  obtain ⟨y, rest, hs, hy, hrest, hall, hstop⟩ := exists_span (· != '\n') s.reverse
  have hdrop : s.reverse.dropWhile (· != '\n') = rest := by
    have := List.takeWhile_append_dropWhile (p := (· != '\n')) (l := s.reverse)
    rw [hy] at this
    exact List.append_cancel_left (this.trans hs)
  have hny : '\n' ∉ y := fun h => by simpa using hall _ h
  cases rest with
  | nil =>
    refine .inl ⟨fun h => hny ?_, hdrop⟩
    rw [List.append_nil] at hs
    rw [← hs]
    exact List.mem_reverse.2 h
  | cons c x =>
    have hc : c = '\n' := by simpa using hstop
    subst hc
    refine .inr ⟨x.reverse, y.reverse, ?_, by simpa using hny, by simp [hdrop]⟩
    have := congrArg List.reverse hs
    simpa using this

theorem blankLines_finds : Pattern.Finds blankLines BlanksCollapsed := by
  intro before s h hh
  unfold blankLines at hh
  split at hh
  case h_2 => cases hh
  case h_1 tail =>
    obtain ⟨blanks, rest, rfl, htake, -, hall, hstop⟩ := exists_span isBlank tail
    dsimp only at hh
    rw [htake] at hh
    rcases exists_lastLine blanks with ⟨-, hd⟩ | ⟨x, y, rfl, hy, hlen⟩
    · simp [hd] at hh
    · rw [hlen] at hh
      simp only [Nat.add_one_ne_zero, beq_iff_eq, if_false, Option.some.injEq] at hh
      subst hh
      refine ⟨'\n' :: (x ++ ['\n']), y ++ rest, by simp, by simp, by simp, x, ?_, ?_, rfl, rfl⟩
      · exact fun c hc => hall c (by simp [hc])
      · rw [takeWhile_append_of_stop (fun c hc => hall c (by simp [hc])) hstop]
        exact hy

theorem isBlank_lf : isBlank '\n' = true := by decide

theorem blankLines_hits : Pattern.Hits blankLines BlanksCollapsed := by
  rintro before _ _ rest ⟨blanks, hall, hrest, rfl, rfl⟩
  have htake : (blanks ++ '\n' :: rest).takeWhile isBlank = blanks ++ '\n' :: rest.takeWhile isBlank := by
    rw [List.takeWhile_append_of_pos hall, List.takeWhile_cons_of_pos isBlank_lf]
  have hdrop : (blanks ++ '\n' :: rest.takeWhile isBlank).reverse.dropWhile (· != '\n') =
      '\n' :: blanks.reverse := by
    have hlast : ∀ c ∈ (rest.takeWhile isBlank).reverse, (c != '\n') = true :=
      ne_of_not_mem fun h => hrest (List.mem_reverse.1 h)
    simp [List.dropWhile_append_of_pos hlast]
  rw [List.cons_append, List.append_assoc, List.singleton_append]
  simp only [blankLines, htake, hdrop]
  simp

theorem not_mem_of_blankLines_declines {before : Option Char} {s : List Char}
    (h : blankLines.Declines before ('\n' :: s)) : '\n' ∉ s.takeWhile isBlank := by
  simp only [Pattern.Declines, blankLines] at h
  rcases exists_lastLine (s.takeWhile isBlank) with ⟨hn, -⟩ | ⟨x, y, -, -, hlen⟩
  · exact hn
  · rw [hlen] at h
    simp at h

theorem edits_collapseBlankLines (s : List Char) :
    Edits (Pattern.Declines blankLines) BlanksCollapsed none s (collapseBlankLines s) :=
  edits_replaceAll blankLines_finds s

/-! ## Words and occurrences stay -/

/-- Between two line feeds that only blanks part, there is nothing. -/
def BlankLinesBare (s : List Char) : Prop :=
  ∀ u b v, s = u ++ '\n' :: (b ++ '\n' :: v) → (∀ c ∈ b, isBlank c = true) → b = []

theorem mem_takeWhile_isBlank {b : List Char} (hb : ∀ c ∈ b, isBlank c = true) (v : List Char) :
    '\n' ∈ (b ++ '\n' :: v).takeWhile isBlank := by
  rw [List.takeWhile_append_of_pos hb, List.takeWhile_cons_of_pos isBlank_lf]
  simp

theorem not_mem_takeWhile_isBlank {Keep : KeepAt} {before : Option Char} {s t : List Char}
    (h : Edits Keep BlanksCollapsed before s t) (hs : '\n' ∉ s.takeWhile isBlank) :
    '\n' ∉ t.takeWhile isBlank := by
  induction h with
  | nil => exact hs
  | @keep b c s t _ _ ih =>
    by_cases hc : isBlank c = true
    · rw [List.takeWhile_cons_of_pos hc, List.mem_cons, not_or] at hs ⊢
      exact ⟨hs.1, ih hs.2⟩
    · rw [List.takeWhile_cons_of_neg hc]
      simp
  | edit e _ _ =>
    obtain ⟨blanks, -, -, rfl, rfl⟩ := e
    rw [List.cons_append, List.takeWhile_cons_of_pos isBlank_lf] at hs
    simp at hs

theorem blankLinesBare_of_edits {before : Option Char} {s t : List Char}
    (h : Edits (Pattern.Declines blankLines) BlanksCollapsed before s t) : BlankLinesBare t := by
  induction h with
  | nil => intro u b v ht; simp at ht
  | @keep before c s t k h ih =>
    intro u b v ht hb
    cases u with
    | nil =>
      obtain ⟨rfl, rfl⟩ := List.cons.inj ht
      have := not_mem_takeWhile_isBlank h (not_mem_of_blankLines_declines k)
      exact absurd (mem_takeWhile_isBlank hb v) this
    | cons d u => exact ih u b v (List.cons.inj ht).2 hb
  | @edit before old new s t e h ih =>
    intro u b v ht hb
    -- the blanks behind what was written hold no line feed, so a second one is one of those written
    obtain ⟨blanks, -, hs, rfl, rfl⟩ := e
    have hfront := not_mem_takeWhile_isBlank h hs
    match u, ht with
    | [], ht =>
      cases b with
      | nil => rfl
      | cons d b =>
        simp only [List.cons_append, List.nil_append, List.cons.injEq, true_and] at ht
        obtain ⟨rfl, rfl⟩ := ht
        exact absurd (mem_takeWhile_isBlank (fun c hc => hb c (by simp [hc])) v) hfront
    | [d], ht =>
      simp only [List.cons_append, List.nil_append, List.cons.injEq, true_and] at ht
      obtain ⟨-, rfl⟩ := ht
      exact absurd (mem_takeWhile_isBlank hb v) hfront
    | d :: d' :: u, ht =>
      simp only [List.cons_append, List.nil_append, List.cons.injEq] at ht
      exact ih u b v ht.2.2 hb

/-- After the rule only empty lines are blank. -/
theorem blankLinesBare_collapseBlankLines (s : List Char) : BlankLinesBare (collapseBlankLines s) :=
  blankLinesBare_of_edits (edits_collapseBlankLines s)

end SqlDump.Rule
