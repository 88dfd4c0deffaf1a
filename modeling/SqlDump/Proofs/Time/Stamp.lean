import SqlDump.Proofs.Text.Words
import SqlDump.Time.Stamp
/-!
# The text of a time stamp

A stamp with a year of four digits is written in groups of two and four digits between separators.
This is all that the rules behind the time stamps can see of one.
-/

namespace SqlDump.Time

open Text

theorem isDigit_digit (n : Nat) : (digit n).isDigit = true := by
  have key : ∀ r < 10, (Char.ofNat ('0'.toNat + r)).isDigit = true := by decide
  exact key _ (Nat.mod_lt _ (by decide))

theorem isWord_of_isDigit {c : Char} (h : c.isDigit = true) : isWord c = true := by
  have hlt : c.toNat < 128 := by
    simp only [Char.isDigit, Bool.and_eq_true, decide_eq_true_eq] at h
    exact Nat.lt_of_le_of_lt (UInt32.le_iff_toNat_le.1 h.2) (by decide)
  simp [isWord, hlt, Char.isAlphanum, h]

theorem isDigit_of_mem_twoDigits {n : Nat} {c : Char} (h : c ∈ twoDigits n) : c.isDigit = true := by
  simp only [twoDigits, List.mem_cons, List.not_mem_nil, or_false] at h
  rcases h with rfl | rfl <;> exact isDigit_digit _

theorem fourDigits_of_lt {n : Nat} (h : n < 10000) :
    fourDigits n = twoDigits (n / 100) ++ twoDigits n := by
  unfold fourDigits
  rw [if_pos h]

theorem yearText_of_lt {year : Int} (h0 : 0 ≤ year) (h : year < 10000) :
    yearText year = twoDigits (year.natAbs / 100) ++ twoDigits year.natAbs := by
  unfold yearText
  rw [if_neg (by omega), if_pos h, fourDigits_of_lt (by omega)]

theorem isDigit_of_mem_fourDigits {n : Nat} {c : Char} (h : c ∈ fourDigits n) : c.isDigit = true := by
  unfold fourDigits at h
  split at h
  · rcases List.mem_append.1 h with h | h
    · exact isDigit_of_mem_twoDigits h
    · exact isDigit_of_mem_twoDigits h
  · exact Nat.isDigit_of_mem_toDigits (by decide) (by decide) h

theorem mem_yearText {year : Int} {c : Char} (h : c ∈ yearText year) : c.isDigit = true ∨ c ∈ ['-', '+'] := by
  unfold yearText at h
  split at h
  · rcases List.mem_cons.1 h with rfl | h
    · exact .inr (by simp)
    · exact .inl (isDigit_of_mem_fourDigits h)
  · split at h
    · exact .inl (isDigit_of_mem_fourDigits h)
    · rcases List.mem_cons.1 h with rfl | h
      · exact .inr (by simp)
      · exact .inl (isDigit_of_mem_fourDigits h)

/-- The text of a stamp of any year. -/
theorem Stamp.mem_text_signed {t : Stamp} {c : Char} (hc : c ∈ t.text) :
    c.isDigit = true ∨ c ∈ ['-', '+', ' ', ':'] := by
  simp only [Stamp.text, List.mem_append, List.mem_singleton, or_assoc] at hc
  rcases hc with hc | rfl | hc | rfl | hc | rfl | hc | rfl | hc | rfl | hc
  · exact (mem_yearText hc).imp_right (List.mem_append_left [' ', ':'])
  all_goals first
    | exact .inl (isDigit_of_mem_twoDigits hc)
    | exact .inr (by simp)

section Text

variable {t : Stamp} (h0 : 0 ≤ t.date.year) (h : t.date.year < 10000)

include h0 h

theorem Stamp.mem_text {c : Char} (hc : c ∈ t.text) : c.isDigit = true ∨ c ∈ ['-', ' ', ':'] := by
  simp only [Stamp.text, yearText_of_lt h0 h, List.mem_append, List.mem_singleton, or_assoc] at hc
  rcases hc with hc | hc | rfl | hc | rfl | hc | rfl | hc | rfl | hc | rfl | hc
  all_goals first
    | exact .inl (isDigit_of_mem_twoDigits hc)
    | exact .inr (by decide)

theorem Stamp.length_le_of_mem_words_text {w : List Char} (hw : w ∈ words t.text) : w.length ≤ 4 := by
  have hdash : isWord '-' = false := by decide
  have hspace : isWord ' ' = false := by decide
  have hcolon : isWord ':' = false := by decide
  have hgroups : words t.text = words (twoDigits (t.date.year.natAbs / 100) ++
      twoDigits t.date.year.natAbs) ++ (words (twoDigits t.date.month) ++ (words (twoDigits t.date.day) ++
      (words (twoDigits t.hour) ++ (words (twoDigits t.minute) ++ words (twoDigits t.second))))) := by
    simp only [Stamp.text, yearText_of_lt h0 h, List.append_assoc, List.cons_append,
      List.nil_append]
    rw [← List.append_assoc, words_append_cons _ _ hdash, words_append_cons _ _ hdash,
      words_append_cons _ _ hspace, words_append_cons _ _ hcolon, words_append_cons _ _ hcolon]
  rw [hgroups] at hw
  simp only [List.mem_append] at hw
  have htwo : ∀ n, w ∈ words (twoDigits n) → w.length ≤ 4 := fun n hw =>
    (length_le_of_mem_words hw).trans (by simp [twoDigits])
  rcases hw with hw | hw | hw | hw | hw | hw
  · exact (length_le_of_mem_words hw).trans (by simp [twoDigits])
  all_goals exact htwo _ hw

end Text

end SqlDump.Time
