import SqlDump.Proofs.Text.WordPattern
import SqlDump.Rule.Keyword
/-!
# What the keyword rules change

A single word is looked for as a whole (`wholeWord_wordPattern`), and a phrase of several words between
the borders of words (`wholeWord_finds`). The rule for counting keys looks for a phrase of four words, and
leaves none behind (`noKeyPhrase_serialKeys`).
-/

namespace SqlDump.Text

theorem isWord_of_foldCase {c : Char} (h : isWord (foldCase c) = true) : isWord c = true := by
  unfold foldCase at h
  split at h
  case isTrue hc => rw [eq_of_beq hc]; decide +kernel
  case isFalse =>
    split at h
    case isTrue hc => rw [eq_of_beq hc]; decide +kernel
    case isFalse =>
      unfold Char.toLower at h
      split at h
      case isTrue hu =>
        have hupper : c.isUpper = true := by simpa [Char.isUpper] using hu
        have hlt : c.toNat < 128 := Nat.lt_of_le_of_lt (UInt32.le_iff_toNat_le.1 hu.2) (by decide)
        simp [isWord, hlt, Char.isAlphanum, Char.isAlpha, hupper]
      case isFalse => exact h

section WholeWord

variable {fold : Char → Char} {phrase : List Char}

/-- A phrase that starts and ends at the borders of words is written anew. -/
def PhraseWritten (fold : Char → Char) (phrase written : List Char) : EditAt :=
  fun before old new rest => endsInWord before = false ∧ old.map fold = phrase ∧
    startsInWord rest = false ∧ new = written

theorem wholeWord_finds (written : List Char) (hne : phrase ≠ []) :
    Pattern.Finds (wholeWord fold phrase written) (PhraseWritten fold phrase written) := by
  intro before s h hh
  unfold wholeWord at hh
  split at hh
  case isFalse => cases hh
  case isTrue hcond =>
    cases hh
    simp only [Bool.and_eq_true, Bool.not_eq_true', beq_iff_eq] at hcond
    obtain ⟨⟨hb, hold⟩, hs⟩ := hcond
    refine ⟨s.take phrase.length, s.drop phrase.length, (List.take_append_drop _ _).symm, ?_, ?_,
      hb, hold, hs, rfl⟩
    · rintro h
      rw [h] at hold
      exact hne hold.symm
    · have := congrArg List.length hold
      simpa using this.symm

theorem wholeWord_hits (written : List Char) :
    Pattern.Hits (wholeWord fold phrase written) (PhraseWritten fold phrase written) := by
  rintro before old _ rest ⟨hb, hold, hrest, rfl⟩
  have hlen : phrase.length = old.length := by rw [← hold, List.length_map]
  simp [wholeWord, hb, hlen, hold, hrest]

theorem wholeWord_declines {before : Option Char} {m v written : List Char} (hb : NoWord before)
    (hm : m.map fold = phrase) (hv : NoWord v.head?) :
    ¬ (wholeWord fold phrase written).Declines before (m ++ v) := by
  intro h
  rw [Pattern.Declines, wholeWord_hits written ⟨hb, hm, hv, rfl⟩] at h
  cases h

/-- A phrase that is found at a word does not reach behind it. -/
theorem length_le_of_take_map (hfold : ∀ c, isWord (fold c) = true → isWord c = true)
    (hp : ∀ c ∈ phrase, isWord c = true) {w s : List Char} (hs : startsInWord s = false)
    (htake : ((w ++ s).take phrase.length).map fold = phrase) : phrase.length ≤ w.length := by
  refine Nat.le_of_not_lt fun hgt => ?_
  cases s with
  | nil =>
    have := congrArg List.length htake
    simp only [List.append_nil, List.length_map, List.length_take] at this
    omega
  | cons c s =>
    have hc : c ∈ (w ++ c :: s).take phrase.length := by
      obtain ⟨n, hn⟩ := Nat.exists_eq_add_of_lt hgt
      rw [hn, List.take_append, show w.length + n + 1 - w.length = n + 1 by omega]
      simp
    have hword := hfold c (hp _ (htake ▸ List.mem_map_of_mem hc))
    rw [startsInWord_cons, hword] at hs
    cases hs

theorem wholeWord_wordPattern (written : List Char) (hne : phrase ≠ [])
    (hfold : ∀ c, isWord (fold c) = true → isWord c = true) (hp : ∀ c ∈ phrase, isWord c = true) :
    WordPattern (wholeWord fold phrase written) (fun w => w.map fold == phrase) fun _ => written where
  not_empty := by simpa using hne.symm
  inside hb := by simp [wholeWord, hb]
  at_word {before w s} hb hw hs := by
    by_cases hm : w.map fold = phrase
    · have hlen : phrase.length = w.length := by rw [← hm, List.length_map]
      simp [wholeWord, hb, hm, hlen, hs]
    · simp only [beq_iff_eq, hm, if_false]
      unfold wholeWord
      rw [if_neg]
      simp only [Bool.and_eq_true, Bool.not_eq_true', beq_iff_eq, not_and, Bool.not_eq_false]
      rintro ⟨-, htake⟩
      -- the phrase ends inside the word, where the word goes on
      rcases Nat.lt_or_eq_of_le (length_le_of_take_map hfold hp hs htake) with hlt | heq
      · obtain ⟨c, x, hx⟩ := List.exists_cons_of_ne_nil (l := w.drop phrase.length) (by simpa using hlt)
        have hc : c ∈ w := List.mem_of_mem_drop (hx ▸ List.mem_cons_self)
        rw [List.drop_append_of_le_length hlt.le, hx]
        exact hw c hc
      · rw [heq, List.take_left] at htake
        exact absurd htake hm

end WholeWord

end SqlDump.Text

namespace SqlDump.Rule

open Text

/-! ## Truth values -/

theorem edits_upcaseBooleans {P : List Char → Prop}
    (hP : ∀ s t phrase written, phrase = "false".toList ∧ written = "FALSE".toList ∨
      phrase = "true".toList ∧ written = "TRUE".toList →
      Edits Freely (PhraseWritten id phrase written) none s t → P s → P t) {s : List Char}
    (hs : P s) : P (upcaseBooleans s) := by
  have hpass : ∀ t phrase written, phrase ≠ [] →
      Edits Freely (PhraseWritten id phrase written) none t
        (replaceAll (wholeWord id phrase written) t) := fun t phrase written hne =>
    (edits_replaceAll (wholeWord_finds written hne) t).mono (fun _ _ _ => trivial) fun _ _ _ _ e => e
  exact hP _ _ _ _ (.inr ⟨rfl, rfl⟩) (hpass _ _ _ (by decide))
    (hP _ _ _ _ (.inl ⟨rfl, rfl⟩) (hpass _ _ _ (by decide)) hs)

theorem not_infix_upcaseBooleans {f s : List Char} (hf : f ≠ [])
    (hno : NoOverlap f "FALSE".toList ∧ NoOverlap f "TRUE".toList) (h : ¬ f <:+: s) :
    ¬ f <:+: upcaseBooleans s := by
  refine edits_upcaseBooleans (P := fun t => ¬ f <:+: t) ?_ h
  intro s t phrase written hpw he hs
  rcases hpw with ⟨-, rfl⟩ | ⟨-, rfl⟩
  · exact he.not_infix_result hf (.of_written_anything (fun e => e.2.2.2) (by decide) hno.1) hs
  · exact he.not_infix_result hf (.of_written_anything (fun e => e.2.2.2) (by decide) hno.2) hs

/-! ## Counting keys -/

/-- The phrase of a counting key, in lower case. -/
def keyPhrase : List Char := "integer primary key autoincrement".toList

/-- The phrase of a counting key occurs nowhere, in whatever case. -/
def NoKeyPhrase (s : List Char) : Prop := ∀ m, m.map foldCase = keyPhrase → ¬ Occurs NoWord m NoWord s

theorem NoKeyPhrase.of_edits {Keep : KeepAt} {Edit : EditAt} {s t : List Char} (hs : NoKeyPhrase s)
    (h : Edits Keep Edit none s t)
    (hF : ∀ m, m.map foldCase = keyPhrase → Foreign Edit NoWord m NoWord) : NoKeyPhrase t := by
  intro m hm ht
  have hne : m ≠ [] := by
    rintro rfl
    exact absurd hm (by decide)
  exact hs m hm (h.occurs_source hne (hF m hm) ht)

theorem noOverlap_keyPhrase {m written : List Char} (hm : m.map foldCase = keyPhrase)
    (h : NoOverlap keyPhrase (written.map foldCase)) : NoOverlap m written :=
  .of_map foldCase (hm ▸ h)

theorem noKeyPhrase_serialKeys (s : List Char) : NoKeyPhrase (serialKeys s) := by
  intro m hm
  have hne : m ≠ [] := by
    rintro rfl
    exact absurd hm (by decide)
  refine (edits_replaceAll (wholeWord_finds "SERIAL PRIMARY KEY".toList (by decide)) s).not_occurs hne
    (.of_written (fun e => e.2.2.2) (by decide) (noOverlap_keyPhrase hm (by decide)) ?_ ?_) ?_
  · intro b old new s v _ _ h
    exact absurd h (by unfold NoWord; decide)
  · intro b old new s _ _ h
    exact absurd h (by unfold NoWord; decide)
  · intro b v hb hv
    exact wholeWord_declines hb hm hv

end SqlDump.Rule
