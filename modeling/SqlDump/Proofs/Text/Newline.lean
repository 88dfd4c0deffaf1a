import SqlDump.Proofs.Text.Cut
import SqlDump.Proofs.Text.Lines
/-!
# Line ends

The two passes over line ends come to one scan (`normalizeNewlines_eq`), after which no carriage return is left.
Lines without line ends of their own give the same text whichever line end they are joined by
(`unifyNewlines_intercalate`).
-/

namespace SqlDump.Text

variable {s line : List Char}

/-! ## One scan -/

theorem replaceFrom_literal_afresh {sought written : List Char} (before : Option Char) (s : List Char) :
    replaceFrom (literal sought written) before s = replaceAll (literal sought written) s :=
  replaceFrom_congr rfl

theorem replaceAll_char (c d : Char) (s : List Char) :
    replaceAll (literal [c] [d]) s = s.map fun x => if x = c then d else x := by
  induction s with
  | nil => rfl
  | cons x s ih =>
    rw [replaceAll_eq_replaceFrom, List.map_cons]
    by_cases hx : x = c
    · have hhit : literal [c] [d] none (x :: ([] ++ s)) = some ⟨([] : List Char).length + 1, [d]⟩ := by
        simp [literal, hx]
      rw [if_pos hx, ← ih, ← replaceFrom_literal_afresh (some x)]
      exact replaceFrom_cons_of_some hhit
    · have hnone : literal [c] [d] none (x :: s) = none := by
        simp [literal, Ne.symm hx]
      rw [if_neg hx, ← ih, replaceFrom_cons_of_none hnone, replaceFrom_literal_afresh]

/-- The two passes read each of CR LF, CR and LF as one line feed. -/
theorem normalizeNewlines_eq (s : List Char) : normalizeNewlines s = unifyNewlines s := by
  unfold normalizeNewlines
  rw [replaceAll_char]
  fun_induction unifyNewlines s with
  | case1 => rfl
  | case2 rest ih =>
    have hhit : literal ['\r', '\n'] ['\n'] none ('\r' :: (['\n'] ++ rest)) =
        some ⟨['\n'].length + 1, ['\n']⟩ := by
      simp [literal]
    rw [← ih, replaceAll_eq_replaceFrom, ← replaceFrom_literal_afresh (some '\n') rest]
    exact congrArg (List.map _) (replaceFrom_cons_of_some hhit)
  | case3 c rest hno ih =>
    have hnone : literal ['\r', '\n'] ['\n'] none (c :: rest) = none := by
      unfold literal
      refine if_neg fun hprefix => ?_
      obtain ⟨tail, htail⟩ := List.isPrefixOf_iff_prefix.1 hprefix
      obtain ⟨rfl, rfl⟩ := List.cons.inj htail
      exact hno tail rfl rfl
    rw [replaceAll_eq_replaceFrom, replaceFrom_cons_of_none hnone, replaceFrom_literal_afresh, List.map_cons, ih]

theorem no_cr_unifyNewlines (s : List Char) : '\r' ∉ unifyNewlines s := by
  fun_induction unifyNewlines s with
  | case1 => simp
  | case2 rest ih => simpa using ih
  | case3 c rest _ ih =>
    rw [List.mem_cons, not_or]
    refine ⟨?_, ih⟩
    by_cases hc : c = '\r'
    · simp [hc]
    · rw [if_neg hc]
      exact Ne.symm hc

/-- A part without carriage returns is kept, whatever follows. -/
theorem unifyNewlines_append (hline : '\r' ∉ line) (s : List Char) :
    unifyNewlines (line ++ s) = line ++ unifyNewlines s := by
  induction line with
  | nil => rfl
  | cons c line ih =>
    rw [List.mem_cons, not_or] at hline
    have hc : c ≠ '\r' := Ne.symm hline.1
    rw [List.cons_append, unifyNewlines, if_neg hc, ih hline.2]
    · rfl
    · intro rest h _
      exact hc h

theorem unifyNewlines_eq_self (h : '\r' ∉ s) : unifyNewlines s = s := by
  have happend := unifyNewlines_append h []
  rwa [List.append_nil, unifyNewlines, List.append_nil] at happend

theorem unifyNewlines_idempotent (s : List Char) : unifyNewlines (unifyNewlines s) = unifyNewlines s :=
  unifyNewlines_eq_self (no_cr_unifyNewlines s)

/-! ## Lines and their ends -/

theorem not_mem_intercalate {α : Type} {c : α} {between : List α} (hbetween : c ∉ between) {lines : List (List α)}
    (h : ∀ line ∈ lines, c ∉ line) : c ∉ between.intercalate lines := by
  induction lines with
  | nil => simp
  | cons line lines ih =>
    have ih := ih fun l hl => h l (List.mem_cons_of_mem line hl)
    by_cases hne : lines = []
    · simpa [hne] using h
    · rw [List.intercalate_cons_of_ne_nil hne, List.mem_append, List.mem_append, not_or, not_or]
      exact ⟨⟨h line List.mem_cons_self, hbetween⟩, ih⟩

/-- What a line may end with. -/
def lineEnds : List (List Char) := [['\n'], ['\r', '\n'], ['\r']]

/-- A line end is read as one line feed, unless it is a carriage return in front of a line feed. -/
theorem unifyNewlines_lineEnd {lineEnd : List Char} (hend : lineEnd ∈ lineEnds)
    (hs : lineEnd = ['\r'] → s.head? ≠ some '\n') : unifyNewlines (lineEnd ++ s) = '\n' :: unifyNewlines s := by
  simp only [lineEnds, List.mem_cons, List.not_mem_nil, or_false] at hend
  rcases hend with rfl | rfl | rfl
  · exact unifyNewlines_append (by decide) s
  · rfl
  · show unifyNewlines ('\r' :: s) = _
    rw [unifyNewlines, if_pos rfl]
    rintro rest - rfl
    exact hs rfl rfl

/-- Lines come out the same, whichever line end they are joined by. -/
theorem unifyNewlines_intercalate {lineEnd : List Char} (hend : lineEnd ∈ lineEnds) {lines : List (List Char)}
    (h : ∀ line ∈ lines, '\r' ∉ line ∧ '\n' ∉ line) :
    unifyNewlines (lineEnd.intercalate lines) = joinLines lines := by
  induction lines with
  | nil => rfl
  | cons line lines ih =>
    have hline := (h line List.mem_cons_self).1
    have hlines : ∀ l ∈ lines, '\r' ∉ l ∧ '\n' ∉ l := fun l hl => h l (List.mem_cons_of_mem line hl)
    by_cases hne : lines = []
    · rw [hne, List.intercalate_singleton, joinLines_singleton, unifyNewlines_eq_self hline]
    · rw [List.intercalate_cons_of_ne_nil hne, List.append_assoc, unifyNewlines_append hline,
        unifyNewlines_lineEnd hend, ih hlines, joinLines_cons _ hne]
      rintro rfl hhead
      have hno : '\n' ∉ ['\r'].intercalate lines := not_mem_intercalate (by decide) fun l hl => (hlines l hl).2
      exact hno (List.mem_of_head? hhead)

end SqlDump.Text
