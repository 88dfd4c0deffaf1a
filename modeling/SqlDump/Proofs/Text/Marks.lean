import SqlDump.Proofs.Text.Edits
/-!
# Texts between marks

A character that marks something cuts a text into the texts between its marks, and `weave` puts such texts
together again (`weave_splitOn`). Where marks stand side by side they make up runs. A text falls apart into longest
runs and the texts between them in exactly one way (`existsUnique_runsOf`).
-/

namespace SqlDump.Text

/-! ## Single marks -/

/-- Texts with marks between them. -/
def weave : List (List Char) → List Char → List Char
  | [], _ => []
  | text :: _, [] => text
  | text :: texts, mark :: marks => text ++ mark :: weave texts marks

theorem weave_replicate (c : Char) (texts : List (List Char)) :
    weave texts (List.replicate (texts.length - 1) c) = [c].intercalate texts := by
  induction texts with
  | nil => rfl
  | cons text texts ih =>
    cases texts with
    | nil => simp [weave]
    | cons next texts =>
      rw [List.intercalate_cons_of_ne_nil (by simp), ← ih]
      simp [weave, List.replicate_succ]

/-- The marks of a text and what it holds between them. -/
theorem weave_splitOn (c : Char) (s : List Char) :
    weave (s.splitOn c) (List.replicate ((s.splitOn c).length - 1) c) = s := by
  rw [weave_replicate, List.intercalate_splitOn]

theorem not_mem_of_mem_splitOn {c : Char} {s text : List Char} (h : text ∈ s.splitOn c) : c ∉ text := by
  induction s generalizing text with
  | nil => simp_all
  | cons d s ih =>
    rw [List.splitOn_cons_eq_if_modifyHead] at h
    split at h
    case isTrue =>
      rcases List.mem_cons.1 h with rfl | h
      · simp
      · exact ih h
    case isFalse hd =>
      obtain ⟨first, more, hs⟩ := List.exists_cons_of_ne_nil (List.splitOn_ne_nil c s)
      rw [hs] at h ih
      rcases List.mem_cons.1 h with rfl | h
      · have hdc : c ≠ d := by simpa using Ne.symm (ne_of_beq_false (Bool.eq_false_iff.2 hd))
        simp [hdc, ih]
      · exact ih (by simp [h])

/-! ## Runs of marks -/

/-- The longest runs of a character in a text: the texts before, between and behind them, and how long
each of them is. -/
inductive RunsOf (c : Char) : List Char → List (List Char) → List Nat → Prop
  | last {w} : c ∉ w → RunsOf c w [w] []
  | run {w n s texts lengths} : c ∉ w → 0 < n → s.head? ≠ some c → RunsOf c s texts lengths →
      RunsOf c (w ++ (List.replicate n c ++ s)) (w :: texts) (n :: lengths)

namespace RunsOf

variable {c : Char} {s : List Char} {texts texts' : List (List Char)} {lengths lengths' : List Nat}

theorem cons {d : Char} (hd : d ≠ c) (h : RunsOf c s texts lengths) :
    ∃ texts lengths, RunsOf c (d :: s) texts lengths := by
  cases h with
  | last hw => exact ⟨_, _, .last (w := d :: s) (by simp [hw, Ne.symm hd])⟩
  | @run w n s texts lengths hw hn hs h =>
    exact ⟨_, _, .run (w := d :: w) (by simp [hw, Ne.symm hd]) hn hs h⟩

theorem cons_mark (h : RunsOf c s texts lengths) : ∃ texts lengths, RunsOf c (c :: s) texts lengths := by
  by_cases hs : s.head? = some c
  · cases h with
    | last hw => exact absurd (List.mem_of_head? hs) hw
    | @run w n s texts lengths hw hn hs' h =>
      cases w with
      | nil => exact ⟨_, _, .run (w := []) (n := n + 1) (by simp) (by simp) hs' h⟩
      | cons d w =>
        obtain rfl : d = c := by simpa using hs
        exact absurd List.mem_cons_self hw
  · exact ⟨_, _, .run (w := []) (n := 1) (by simp) (by simp) hs h⟩

end RunsOf

theorem exists_runsOf (c : Char) (s : List Char) : ∃ texts lengths, RunsOf c s texts lengths := by
  induction s with
  | nil => exact ⟨_, _, .last (by simp)⟩
  | cons d s ih =>
    obtain ⟨texts, lengths, h⟩ := ih
    by_cases hd : d = c
    · subst hd
      exact h.cons_mark
    · exact h.cons hd

theorem replicate_append_inj {c : Char} {s t : List Char} (hs : s.head? ≠ some c) (ht : t.head? ≠ some c)
    {m n : Nat} (h : List.replicate m c ++ s = List.replicate n c ++ t) : m = n ∧ s = t := by
  induction m generalizing n with
  | zero =>
    cases n with
    | zero => exact ⟨rfl, h⟩
    | succ n =>
      obtain rfl : s = c :: (List.replicate n c ++ t) := h
      simp at hs
  | succ m ih =>
    cases n with
    | zero =>
      obtain rfl : c :: (List.replicate m c ++ s) = t := h
      simp at ht
    | succ n =>
      obtain ⟨rfl, rfl⟩ := ih (by simpa [List.replicate_succ] using h)
      exact ⟨rfl, rfl⟩

theorem RunsOf.unique {c : Char} {s : List Char} {texts texts' : List (List Char)} {lengths lengths' : List Nat}
    (h : RunsOf c s texts lengths) (h' : RunsOf c s texts' lengths') : texts' = texts ∧ lengths' = lengths := by
  induction h generalizing texts' lengths' with
  | last hw =>
    cases h' with
    | last hw' => exact ⟨rfl, rfl⟩
    | run _ hn _ _ => simp [hn.ne'] at hw
  | @run w n s texts lengths hw hn hs h ih =>
    generalize hwhole : w ++ (List.replicate n c ++ s) = whole at h'
    cases h' with
    | last hw' => simp [← hwhole, hn.ne'] at hw'
    | @run w' n' s' texts' lengths' hw' hn' hs' h' =>
      obtain ⟨n, rfl⟩ := Nat.exists_eq_add_one_of_ne_zero hn.ne'
      obtain ⟨n', rfl⟩ := Nat.exists_eq_add_one_of_ne_zero hn'.ne'
      simp only [List.replicate_succ, List.cons_append] at hwhole
      obtain ⟨rfl, -, hrest⟩ := append_cons_inj_of_class (ne_of_not_mem hw) (ne_of_not_mem hw')
        (bne_self_eq_false c) (bne_self_eq_false c) hwhole
      obtain ⟨rfl, rfl⟩ := replicate_append_inj hs hs' hrest
      obtain ⟨rfl, rfl⟩ := ih h'
      exact ⟨rfl, rfl⟩

/-- A text falls apart into longest runs of a character and what is between them in exactly one way. -/
theorem existsUnique_runsOf (c : Char) (s : List Char) :
    ∃! parts : List (List Char) × List Nat, RunsOf c s parts.1 parts.2 := by
  obtain ⟨texts, lengths, h⟩ := exists_runsOf c s
  refine ⟨(texts, lengths), h, ?_⟩
  rintro ⟨texts', lengths'⟩ h'
  obtain ⟨rfl, rfl⟩ := h.unique h'
  rfl

end SqlDump.Text
