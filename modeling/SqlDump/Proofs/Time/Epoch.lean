import SqlDump.Proofs.Text.Lines
import SqlDump.Proofs.Text.WordPattern
import SqlDump.Proofs.Time.Calendar
import SqlDump.Proofs.Time.Numeral
/-!
# What converting epoch values changes

The rule rewrites the words that `isEpochWord` takes for epoch values and leaves the other ones.
Thirteen digits reach into the year 2286 only, so that every such value has a time stamp: the
fallback for values without one is never written.
-/

namespace SqlDump.Time

open Text

/-- The words that are taken for epoch values. -/
def isEpochWord (w : List Char) : Bool :=
  w.head? == some '1' && w.all Char.isDigit && (10 ≤ w.length && w.length ≤ 13)

theorem isEpochWord_iff {w : List Char} : isEpochWord w = true ↔
    w.head? = some '1' ∧ (∀ c ∈ w, c.isDigit = true) ∧ 10 ≤ w.length ∧ w.length ≤ 13 := by
  simp [isEpochWord, and_assoc]

/-! ## Epoch values are words -/

theorem head_not_digit {s : List Char} (h : startsInWord s = false) : s.head?.any Char.isDigit = false := by
  cases s with
  | nil => rfl
  | cons c s =>
    refine Bool.eq_false_iff.2 fun hc => ?_
    rw [startsInWord_cons, isWord_of_isDigit hc] at h
    cases h

theorem epochWord_wordPattern : WordPattern epochWord isEpochWord id where
  not_empty := rfl
  inside hb := by simp [epochWord, hb]
  at_word {before w s} hb hw hs := by
    -- the digits are the whole word, or the word goes on behind them
    obtain ⟨digits, rest, rfl, -, -, hdigits, hstop⟩ := exists_span Char.isDigit w
    cases rest with
    | nil =>
      rw [List.append_nil] at hw ⊢
      have hall : digits.all Char.isDigit = true := List.all_eq_true.2 hdigits
      unfold epochWord
      rw [takeWhile_append_of_stop hdigits (head_not_digit hs)]
      dsimp only
      rw [List.drop_left]
      cases digits with
      | nil => simp [isEpochWord]
      | cons c digits => simp [hb, hs, hall, isEpochWord, ite_and]
    | cons c rest =>
      have hc : c.isDigit = false := hstop
      have hno : isEpochWord (digits ++ c :: rest) = false := by simp [isEpochWord, hc]
      have hcw : isWord c = true := hw c (by simp)
      unfold epochWord
      have hstop' : (c :: (rest ++ s)).head?.any Char.isDigit = false := hc
      rw [List.append_assoc, List.cons_append, takeWhile_append_of_stop hdigits hstop']
      dsimp only
      rw [List.drop_left]
      simp [hno, hcw]

/-! ## Every epoch value has a time stamp -/

theorem digitsValue_of_isEpochWord {w : List Char} (hw : isEpochWord w = true) :
    IsDigits w ∧ 10 ^ 9 ≤ digitsValue w ∧ digitsValue w < 10 ^ w.length := by
  obtain ⟨hhead, hdigits, hten, -⟩ := isEpochWord_iff.1 hw
  obtain ⟨w, rfl⟩ := List.head?_eq_some_iff.1 hhead
  refine ⟨⟨List.cons_ne_nil _ _, hdigits⟩, ?_, digitsValue_lt hdigits⟩
  calc 10 ^ 9 ≤ 10 ^ w.length := Nat.pow_le_pow_right (by decide) (by simpa using hten)
    _ = 10 ^ w.length * digitsValue ['1'] := (Nat.mul_one _).symm
    _ ≤ 10 ^ w.length * digitsValue ['1'] + digitsValue w := Nat.le_add_right _ _
    _ = digitsValue ('1' :: w) := (digitsValue_append ['1'] w).symm

/-- The value of an epoch word has ten to thirteen digits, so that no 64 bits are too few for it. -/
theorem readInt64_of_isEpochWord {w : List Char} (hw : isEpochWord w = true) :
    ∃ n : Nat, 10 ^ 9 ≤ n ∧ n < 10 ^ 13 ∧ readInt64? w = some (n : Int) := by
  obtain ⟨hdigits, hle, hlt⟩ := digitsValue_of_isEpochWord hw
  have hlt : digitsValue w < 10 ^ 13 :=
    hlt.trans_le (Nat.pow_le_pow_right (by decide) (isEpochWord_iff.1 hw).2.2.2)
  refine ⟨digitsValue w, hle, hlt, ?_⟩
  rw [readInt64?_eq_some_iff]
  exact ⟨.unsigned hdigits, by omega, by omega⟩

/-- What the later rules see of a time stamp. -/
structure StampText (s : List Char) : Prop where
  chars : ∀ c ∈ s, c.isDigit = true ∨ c ∈ ['-', ' ', ':']
  words_short : ∀ w ∈ words s, w.length ≤ 4

theorem stampText_ofSeconds {n : Int} (h0 : 0 ≤ n) (h : n ≤ 10 ^ 10 + 86400) :
    StampText (Stamp.ofSeconds n).text := by
  obtain ⟨hyear, hyear'⟩ := year_ofDayNumber (n := n / 86400) (by omega) (by omega)
  have h0 : 0 ≤ (Stamp.ofSeconds n).date.year := Int.le_trans (by decide) hyear
  have h4 : (Stamp.ofSeconds n).date.year < 10000 := Int.lt_of_le_of_lt hyear' (by decide)
  exact ⟨fun _ => Stamp.mem_text h0 h4, fun _ => Stamp.length_le_of_mem_words_text h0 h4⟩

/-- The seconds of an epoch value have 8 to 11 digits, and local time is less than a day ahead. -/
theorem epochLiteral_eq_ofSeconds (zone : Zone) {w : List Char} (hw : isEpochWord w = true) :
    ∃ n : Int, 10 ^ 7 ≤ n ∧ n ≤ 10 ^ 10 + 86400 ∧
      zone.epochLiteral w = .converted (singleQuoted (Stamp.ofSeconds n).text) := by
  obtain ⟨n, hn, hn', hread⟩ := readInt64_of_isEpochWord hw
  have hseconds : 10 ^ 7 ≤ secondsOf n ∧ secondsOf n ≤ 10 ^ 10 := by
    unfold secondsOf millisThreshold
    split <;> omega
  have hoffset : 0 ≤ zone.offset ∧ zone.offset ≤ 86400 := by
    cases zone <;> decide
  have hrange : earliest ≤ secondsOf n ∧ secondsOf n ≤ latest := by
    unfold earliest latest
    omega
  refine ⟨secondsOf n + zone.offset, by omega, by omega, ?_⟩
  simp [Zone.epochLiteral, hread, Zone.format?, hrange]

/-- Every epoch value becomes a time stamp. -/
theorem epochLiteral_eq (zone : Zone) {w : List Char} (hw : isEpochWord w = true) :
    ∃ s, zone.epochLiteral w = .converted (singleQuoted s) ∧ StampText s := by
  obtain ⟨n, hn, hn', heq⟩ := epochLiteral_eq_ofSeconds zone hw
  exact ⟨_, heq, stampText_ofSeconds (by omega) hn'⟩

/-! ## What the rule changes -/

/-- What a word is written as. -/
def Zone.epochText (zone : Zone) (w : List Char) : List Char :=
  if isEpochWord w then (zone.epochLiteral w).text else w

/-- The rule rewrites the epoch values among the words and counts them. -/
theorem convertEpochs_eq (zone : Zone) (s : List Char) :
    zone.convertEpochs s = (mapWords zone.epochText s, ⟨(words s).countP isEpochWord, 0⟩) := by
  have hliteral : ∀ l ∈ (((words s).filter isEpochWord).map id).map zone.epochLiteral,
      l.isConverted = true := by
    intro l hl
    simp only [List.map_id, List.mem_map, List.mem_filter] at hl
    obtain ⟨w, ⟨-, hw⟩, rfl⟩ := hl
    obtain ⟨stamp, hstamp, -⟩ := epochLiteral_eq zone hw
    rw [hstamp]
    rfl
  unfold Zone.convertEpochs
  dsimp only
  rw [text_eq_mapWords epochWord_wordPattern, hits_eq epochWord_wordPattern]
  have hall := List.countP_eq_length.2 hliteral
  have hnone : List.countP (fun l => !l.isConverted)
      ((((words s).filter isEpochWord).map id).map zone.epochLiteral) = 0 :=
    List.countP_eq_zero.2 fun l hl => by simp [hliteral l hl]
  rw [hall, hnone, List.countP_eq_length_filter, List.length_map, List.length_map]
  rfl

/-- A text without epoch values is kept. -/
theorem convertEpochs_eq_self (zone : Zone) {s : List Char} (h : ∀ w ∈ words s, isEpochWord w = false) :
    zone.convertEpochs s = (s, ⟨0, 0⟩) := by
  have hkept : mapWords zone.epochText s = s := by
    refine mapWords_eq_self rfl fun w hw => ?_
    unfold Zone.epochText
    rw [h w hw]
    rfl
  have hnone : (words s).countP isEpochWord = 0 := by
    rw [List.countP_eq_zero]
    intro w hw
    rw [h w hw]
    exact Bool.false_ne_true
  rw [convertEpochs_eq, hkept, hnone]

/-- An epoch value is written as a time stamp in single quotes. -/
def EpochWritten : EditAt := fun _ old new _ =>
  isEpochWord old = true ∧ ∃ stamp, new = singleQuoted stamp ∧ StampText stamp

theorem edits_convertEpochs (zone : Zone) (s : List Char) :
    Edits Freely EpochWritten none s (zone.convertEpochs s).1 := by
  rw [convertEpochs_eq]
  have hword : ∀ w b {s t}, Edits Freely EpochWritten (w.getLast?.or b) s t →
      Edits Freely EpochWritten b (w ++ s) (zone.epochText w ++ t) := by
    intro w b s t h
    unfold Zone.epochText
    by_cases hw : isEpochWord w = true
    · rw [if_pos hw]
      obtain ⟨stamp, hstamp, hs⟩ := epochLiteral_eq zone hw
      rw [hstamp]
      exact .edit ⟨hw, stamp, rfl, hs⟩ h
    · rw [if_neg hw]
      exact .keepAll w b h
  suffices ∀ b, Edits Freely EpochWritten b s (mapWords zone.epochText s) from this none
  induction s using word_induction with
  | word w hw =>
    intro b
    rw [mapWords_word _ hw]
    simpa using hword w b .nil
  | cons w c s hw hc ih =>
    intro b
    rw [mapWords_append_cons _ s hw hc]
    exact hword w b (.keep trivial (ih _))

theorem linewise_convertEpochs (zone : Zone) : Linewise fun s => (zone.convertEpochs s).1 where
  nil := by
    rw [convertEpochs_eq]
    rfl
  append {line} s _ := by
    simp only [convertEpochs_eq]
    exact mapWords_append_of_not_isWord _ _ _ (by decide)
  line {line} hline := by
    refine (edits_convertEpochs zone line).not_mem ?_ hline
    rintro b _ _ s ⟨-, stamp, rfl, hs⟩ h
    simp only [singleQuoted, List.mem_cons, List.mem_append, List.not_mem_nil, or_false] at h
    rcases h with h | h | h
    · cases h
    · exact absurd (hs.chars _ h) (by decide)
    · cases h

theorem words_singleQuoted (s : List Char) : words (singleQuoted s) = words s := by
  have hquote : isWord '\x27' = false := by decide
  rw [singleQuoted, words_cons hquote, words_append_cons _ _ hquote, words_nil, List.append_nil]

/-- No epoch value is left: the groups of a time stamp are too short for one. -/
theorem no_epoch_convertEpochs (zone : Zone) (s : List Char) :
    ∀ w ∈ words (zone.convertEpochs s).1, isEpochWord w = false := by
  intro w hw
  rw [convertEpochs_eq, words_mapWords rfl, List.mem_flatMap] at hw
  obtain ⟨v, hv, hw⟩ := hw
  unfold Zone.epochText at hw
  by_cases he : isEpochWord v = true
  · obtain ⟨stamp, hstamp, hs⟩ := epochLiteral_eq zone he
    rw [if_pos he, hstamp, EpochLiteral.text, words_singleQuoted] at hw
    have hshort := hs.words_short w hw
    refine Bool.eq_false_iff.2 fun h => ?_
    have := (isEpochWord_iff.1 h).2.2.1
    omega
  · obtain ⟨hne, hall, -⟩ := mem_words_iff.1 hv
    rw [if_neg he, words_word hall hne, List.mem_singleton] at hw
    rw [hw]
    exact Bool.eq_false_iff.2 he

/-- A text without single quotes, but with some character that no time stamp holds, is not touched by
a time stamp. -/
theorem epochWritten_foreign {Left Right : Beside} {f : List Char} {d : Char} (hquote : '\x27' ∉ f)
    (hd : d ∈ f) (hstamp : d.isDigit = false ∧ d ∉ ['-', ' ', ':'])
    (hl : ∀ c, c.isDigit = true → Left (some '\x27') → Left (some c))
    (hr : Right (some '\x27') → Right (some '1')) : Foreign EpochWritten Left f Right := by
  refine .of_noOverlap ?_ ?_ ?_ ?_
  · rintro b old _ s ⟨-, stamp, rfl, -⟩
    simp [singleQuoted]
  · rintro b old _ s ⟨-, stamp, rfl, hs⟩
    refine .of_delimited hquote hd fun h => ?_
    rcases hs.chars d h with h | h
    · rw [hstamp.1] at h
      cases h
    · exact hstamp.2 h
  · rintro b old _ s v ⟨hold, stamp, rfl, -⟩ - h
    obtain ⟨hhead, hdigits, -⟩ := isEpochWord_iff.1 hold
    have hne : old ≠ [] := by
      rintro rfl
      cases hhead
    rw [getLast?_or_of_ne_nil hne, List.getLast?_eq_getLast_of_ne_nil hne]
    refine hl _ (hdigits _ (List.getLast_mem hne)) ?_
    simpa [singleQuoted, List.getLast?_cons] using h
  · rintro b old _ s ⟨hold, stamp, rfl, -⟩ - h
    obtain ⟨old, rfl⟩ := List.head?_eq_some_iff.1 (isEpochWord_iff.1 hold).1
    exact hr h

end SqlDump.Time
