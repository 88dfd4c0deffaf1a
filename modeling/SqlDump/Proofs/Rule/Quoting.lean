import SqlDump.Proofs.Text.Lines
import SqlDump.Proofs.Text.WordPattern
import SqlDump.Rule.Quoting
/-!
# What the quoting rules change

Three rules move double quotes about: two put quotes around a name and one takes a pair from each
side of it. No other character changes, and a quote never comes to stand inside a word, so the words
of the text stay the same (`words_quoteInsertTarget` and its siblings).
-/

namespace SqlDump.Rule

open Text

/-! ## What the patterns find -/

/-- A bare table name behind its keyword is put in quotes. -/
def TargetQuoted : EditAt := fun _ old new rest =>
  ∃ name, name ≠ [] ∧ (∀ c ∈ name, inBareName c = true) ∧ rest.head?.any inBareName = false ∧
    old = "INSERT INTO ".toList ++ name ∧ new = "INSERT INTO ".toList ++ quoted name

theorem insertTarget_finds : Pattern.Finds insertTarget TargetQuoted := by
  intro before s h hh
  unfold insertTarget at hh
  generalize hk : "INSERT INTO ".toList = keyword at hh
  dsimp only at hh
  split at hh
  case isFalse => cases hh
  case isTrue hkw =>
    obtain ⟨tail, rfl⟩ := List.isPrefixOf_iff_prefix.1 hkw
    obtain ⟨name, rest, rfl, hname, -, hall, hstop⟩ := exists_span inBareName tail
    rw [List.drop_left, hname] at hh
    split at hh
    · cases hh
    · next hne =>
      cases hh
      refine ⟨keyword ++ name, rest, by simp, by simp [← hk], by simp, ?_⟩
      exact ⟨name, by simpa using hne, hall, hstop, by rw [hk], by rw [hk]⟩

theorem insertTarget_hits : Pattern.Hits insertTarget TargetQuoted := by
  rintro before _ _ rest ⟨name, hne, hname, hstop, rfl, rfl⟩
  have htake : (name ++ rest).takeWhile inBareName = name := takeWhile_append_of_stop hname hstop
  unfold insertTarget
  generalize "INSERT INTO ".toList = keyword
  simp [htake, hne]

/-- Table and columns behind `REFERENCES` are put in quotes. -/
def ReferenceQuoted : EditAt := fun _ old new _ =>
  ∃ table columns, table ≠ [] ∧ '(' ∉ table ∧ columns ≠ [] ∧ ')' ∉ columns ∧
    old = "REFERENCES ".toList ++ (table ++ '(' :: (columns ++ [')'])) ∧
    new = "REFERENCES ".toList ++ (quoted table ++ '(' :: (quoted columns ++ [')']))

theorem reference_finds : Pattern.Finds reference ReferenceQuoted := by
  intro before s h hh
  unfold reference at hh
  generalize hk : "REFERENCES ".toList = keyword at hh
  dsimp only at hh
  split at hh
  case isFalse => cases hh
  case isTrue hkw =>
    obtain ⟨tail, rfl⟩ := List.isPrefixOf_iff_prefix.1 hkw
    obtain ⟨table, rest, rfl, htable, hrest, ht, -⟩ := exists_span (· != '(') tail
    rw [List.drop_left, htable, hrest] at hh
    split at hh
    case h_2 => cases hh
    case h_1 inner =>
      obtain ⟨columns, rest, rfl, hcolumns, hrest', hc, -⟩ := exists_span (· != ')') inner
      rw [hcolumns, hrest'] at hh
      split at hh
      case isFalse => cases hh
      case isTrue hcond =>
        cases hh
        simp only [Bool.and_eq_true, Bool.not_eq_true', List.isEmpty_eq_false_iff, beq_iff_eq] at hcond
        obtain ⟨⟨htne, hcne⟩, hclose⟩ := hcond
        obtain ⟨rest, rfl⟩ := List.head?_eq_some_iff.1 hclose
        refine ⟨keyword ++ (table ++ '(' :: (columns ++ [')'])), rest, by simp, by simp, ?_, ?_⟩
        · simp
          omega
        · refine ⟨table, columns, htne, fun h => ?_, hcne, fun h => ?_, by rw [hk], by simp [hk]⟩
          · simpa using ht _ h
          · simpa using hc _ h

theorem reference_hits : Pattern.Hits reference ReferenceQuoted := by
  rintro before _ _ rest ⟨table, columns, htable, hopen, hcolumns, hclose, rfl, rfl⟩
  unfold reference
  generalize "REFERENCES ".toList = keyword
  simp [takeWhile_append_cons_of_not_mem hopen, takeWhile_append_cons_of_not_mem hclose, htable, hcolumns]
  omega

/-- A name between doubled quotes comes to stand between single ones. -/
def NameHalved : EditAt := fun _ old new _ =>
  ∃ name, name ≠ [] ∧ '"' ∉ name ∧ old = ['"', '"'] ++ (name ++ ['"', '"']) ∧ new = quoted name

theorem doublyQuoted_finds : Pattern.Finds doublyQuoted NameHalved := by
  intro before s h hh
  unfold doublyQuoted at hh
  split at hh
  case h_2 => cases hh
  case h_1 tail =>
    obtain ⟨name, rest, rfl, hname, hrest, hn, -⟩ := exists_span (· != '"') tail
    dsimp only at hh
    rw [hname, hrest] at hh
    split at hh
    case isFalse => cases hh
    case isTrue hcond =>
      cases hh
      simp only [Bool.and_eq_true, Bool.not_eq_true', List.isEmpty_eq_false_iff] at hcond
      obtain ⟨hne, hclose⟩ := hcond
      obtain ⟨rest, rfl⟩ := List.isPrefixOf_iff_prefix.1 hclose
      refine ⟨['"', '"'] ++ (name ++ ['"', '"']), rest, by simp, by simp, by simp, name, hne, ?_, rfl, rfl⟩
      intro h
      simpa using hn _ h

/-! ## Quotes come and go between words -/

/-- A double quote is put where it cuts no word. -/
def QuoteAdded : EditAt := fun before old new rest =>
  old = [] ∧ new = ['"'] ∧ (endsInWord before = true → startsInWord rest = false)

/-- One of two double quotes is taken. -/
def QuoteHalved : EditAt := fun _ old new _ => old = ['"', '"'] ∧ new = ['"']

theorem isWord_of_not_inBareName {c : Char} (h : inBareName c = false) : isWord c = false := by
  simp only [inBareName, Bool.not_eq_false', Bool.or_eq_true, beq_iff_eq] at h
  rcases h with (rfl | h) | rfl
  · decide
  · exact isWord_of_isBlank h
  · decide

theorem addQuote {before : Option Char} {s t : List Char}
    (hcut : endsInWord before = true → startsInWord s = false)
    (h : Edits Freely QuoteAdded before s t) : Edits Freely QuoteAdded before s ('"' :: t) := by
  have e : QuoteAdded before [] ['"'] s := ⟨rfl, rfl, hcut⟩
  show Edits Freely QuoteAdded before ([] ++ s) (['"'] ++ t)
  exact .edit e h

theorem halveQuotes (before : Option Char) {s t : List Char}
    (h : Edits Freely QuoteHalved (some '"') s t) :
    Edits Freely QuoteHalved before ('"' :: '"' :: s) ('"' :: t) := by
  have e : QuoteHalved before ['"', '"'] ['"'] s := ⟨rfl, rfl⟩
  show Edits Freely QuoteHalved before (['"', '"'] ++ s) (['"'] ++ t)
  exact .edit e h

theorem quoteAround (name : List Char) {s t : List Char} {before : Option Char}
    (hfront : endsInWord before = false) (hback : startsInWord s = false)
    (h : Edits Freely QuoteAdded (name.getLast?.or before) s t) :
    Edits Freely QuoteAdded before (name ++ s) (quoted name ++ t) := by
  have hname := Edits.keepAll name _ (addQuote (fun _ => hback) h)
  simpa [quoted] using addQuote (fun hb => by simp [hfront] at hb) hname

theorem edits_quoteInsertTarget (s : List Char) :
    Edits Freely QuoteAdded none s (quoteInsertTarget s) := by
  refine (edits_replaceAll insertTarget_finds s).refine (fun _ _ _ => trivial) ?_
  rintro b _ _ s t ⟨name, hne, hname, hstop, rfl, rfl⟩ ht
  rw [List.append_assoc, List.append_assoc]
  refine .keepAll _ _ (quoteAround name rfl ?_ ?_)
  · cases s with
    | nil => rfl
    | cons c s => exact isWord_of_not_inBareName (by simpa using hstop)
  · rwa [getLast?_append_or] at ht

theorem edits_quoteReferences (s : List Char) :
    Edits Freely QuoteAdded none s (quoteReferences s) := by
  refine (edits_replaceAll reference_finds s).refine (fun _ _ _ => trivial) ?_
  rintro b _ _ s t ⟨table, columns, -, -, -, -, rfl, rfl⟩ ht
  have hlast : ("REFERENCES ".toList ++ (table ++ '(' :: (columns ++ [')']))).getLast? = some ')' := by
    simp [List.getLast?_append, List.getLast?_cons]
  rw [hlast] at ht
  have hcolumns : Edits Freely QuoteAdded (some '(') (columns ++ ')' :: s) (quoted columns ++ ')' :: t) :=
    quoteAround columns rfl rfl (.keep trivial ht)
  have htable : Edits Freely QuoteAdded (some ' ') (table ++ '(' :: (columns ++ ')' :: s))
      (quoted table ++ '(' :: (quoted columns ++ ')' :: t)) :=
    quoteAround table rfl rfl (.keep trivial hcolumns)
  simpa using Edits.keepAll "REFERENCES ".toList b htable

theorem edits_collapseDoubledQuotes (s : List Char) :
    Edits Freely QuoteHalved none s (collapseDoubledQuotes s) := by
  refine (edits_replaceAll doublyQuoted_finds s).refine (fun _ _ _ => trivial) ?_
  rintro b _ _ s t ⟨name, -, -, rfl, rfl⟩ ht
  have hlast : (['"', '"'] ++ (name ++ ['"', '"'])).getLast? = some '"' := by
    simp [List.getLast?_append, List.getLast?_cons]
  rw [hlast] at ht
  simpa [quoted] using halveQuotes b (Edits.keepAll name _ (halveQuotes _ ht))

/-! ## Words and occurrences stay -/

theorem quoteAdded_wordWise : WordWise QuoteAdded Eq where
  new_ne := by rintro b _ _ s ⟨rfl, rfl, -⟩; simp
  starts := by rintro b _ _ s ⟨rfl, rfl, -⟩ h; cases h
  front := by rintro b _ _ s ⟨rfl, rfl, hcut⟩ h; exact hcut h
  back := by rintro b _ _ s ⟨rfl, rfl, -⟩ _; exact ⟨rfl, rfl⟩
  words := by rintro b _ _ s ⟨rfl, rfl, -⟩; rfl

theorem quoteHalved_wordWise : WordWise QuoteHalved Eq where
  new_ne := by rintro b _ _ s ⟨rfl, rfl⟩; simp
  starts := by rintro b _ _ s ⟨rfl, rfl⟩ h; cases h
  front := by rintro b _ _ s ⟨rfl, rfl⟩ _; rfl
  back := by rintro b _ _ s ⟨rfl, rfl⟩ _; exact ⟨rfl, rfl⟩
  words := by rintro b _ _ s ⟨rfl, rfl⟩; rfl

theorem words_quoteInsertTarget (s : List Char) : words (quoteInsertTarget s) = words s :=
  Edits.words_eq quoteAdded_wordWise (edits_quoteInsertTarget s)

theorem words_collapseDoubledQuotes (s : List Char) : words (collapseDoubledQuotes s) = words s :=
  Edits.words_eq quoteHalved_wordWise (edits_collapseDoubledQuotes s)

theorem quoteAdded_foreign_anything {f : List Char} (hno : NoOverlap f ['"']) :
    Foreign QuoteAdded Anything f Anything :=
  .of_written_anything (fun e => e.2.1) (by simp) hno

theorem quoteHalved_foreign {Left Right : Beside} {f : List Char} (hno : NoOverlap f ['"']) :
    Foreign QuoteHalved Left f Right := by
  refine .of_written (fun e => e.2) (by simp) hno ?_ ?_
  · rintro b _ _ s v ⟨rfl, -⟩ _ h
    exact h
  · rintro b _ _ s ⟨rfl, -⟩ _ h
    exact h

/-! ## Lines -/

theorem lineLocal_insertTarget : LineLocal insertTarget where
  start _ := rfl
  declines before s := by
    have := isPrefixOf_append_line (f := "INSERT INTO ".toList) (by decide) [] s
    rw [List.nil_append] at this
    simp only [insertTarget, this]
    rfl
  stops before line s _ := by
    simp only [insertTarget, isPrefixOf_append_line (f := "INSERT INTO ".toList) (by decide)]
    split
    case isFalse => rfl
    case isTrue h =>
      obtain ⟨tail, rfl⟩ := List.isPrefixOf_iff_prefix.1 h
      rw [List.append_assoc, List.drop_left, List.drop_left,
        takeWhile_append_line (q := inBareName) (by decide)]

theorem linewise_quoteInsertTarget : Linewise quoteInsertTarget := by
  refine linewise_replaceAll lineLocal_insertTarget insertTarget_finds ?_
  rintro b _ _ s ⟨name, -, hname, -, -, rfl⟩ h
  simp only [quoted, List.mem_append, List.mem_cons, List.not_mem_nil, or_false] at h
  rcases h with h | h | h | h
  · exact absurd h (by decide)
  · cases h
  · exact absurd (hname _ h) (by decide)
  · cases h

/-! ## No bare table name is left -/

/-- A character of a bare table name stands beside. -/
def Bare : Beside := fun c => c.any inBareName = true

theorem not_bare_quote (s : List Char) : ¬ Bare ('"' :: s).head? := by
  simp [Bare, inBareName]

/-- Before its first quote, an end of a quoted table name is an end of the keyword, or holds no
blank. -/
theorem targetQuoted_suffix {name x : List Char} (hname : ∀ c ∈ name, inBareName c = true)
    (hx : x <:+ "INSERT INTO ".toList ++ quoted name) (hne : x ≠ []) :
    ∃ p q, x = p ++ '"' :: q ∧ (p.length ≤ "INSERT INTO ".toList.length ∨ ' ' ∉ p) := by
  have hblank : ' ' ∉ name := fun h => absurd (hname _ h) (by decide)
  obtain ⟨w, hw⟩ := hx
  generalize "INSERT INTO ".toList = keyword at hw ⊢
  rcases List.append_eq_append_iff.1 hw with ⟨a, rfl, rfl⟩ | ⟨a, rfl, ha⟩
  · exact ⟨a, name ++ ['"'], rfl, .inl (by simp)⟩
  · cases a with
    | nil => exact ⟨[], name ++ ['"'], by simpa [quoted] using ha.symm, .inr (by simp)⟩
    | cons c a =>
      obtain ⟨-, ha⟩ := List.cons.inj ha
      rcases List.append_eq_append_iff.1 ha.symm with ⟨b, rfl, rfl⟩ | ⟨b, rfl, hb⟩
      · exact ⟨b, [], rfl, .inr fun h => hblank (List.mem_append_right _ h)⟩
      · refine ⟨[], [], ?_, .inr (by simp)⟩
        cases b with
        | nil => simpa using hb.symm
        | cons c b => simp [hne] at hb

theorem targetQuoted_foreign : Foreign TargetQuoted Anything "INSERT INTO ".toList Bare where
  new_ne := by rintro b _ _ s ⟨name, -, -, -, -, rfl⟩; simp [quoted]
  inside := by
    rintro b _ _ s ⟨name, -, hname, -, -, rfl⟩ x t v hx hne he
    obtain ⟨p, q, rfl, hp⟩ := targetQuoted_suffix hname hx hne
    rw [List.append_assoc] at he
    rcases List.append_eq_append_iff.1 he with ⟨a, ha, hv⟩ | ⟨a, rfl, rfl⟩
    · -- the occurrence reaches up to the quote or over it
      cases a with
      | nil =>
        rw [List.nil_append] at hv
        rw [← hv]
        exact not_bare_quote _
      | cons c a =>
        obtain ⟨rfl, -⟩ := List.cons.inj hv
        have : '"' ∈ "INSERT INTO ".toList := by rw [ha]; simp
        exact absurd this (by decide)
    · -- the occurrence ends before the quote
      rcases hp with hp | hp
      · have : a = [] := List.length_eq_zero_iff.1 (by rw [List.length_append] at hp; omega)
        rw [this]
        exact not_bare_quote _
      · exact absurd (List.mem_append_left a (by decide)) hp
  across := by
    rintro b _ _ s ⟨name, -, -, -, -, rfl⟩ y t v hy hne he
    -- an end of the keyword that starts it is the whole keyword
    have hborder : ∀ y ∈ "INSERT INTO ".toList.tails, y ≠ [] → y <+: "INSERT INTO ".toList →
        y = "INSERT INTO ".toList := by decide
    rw [List.append_assoc] at he
    have hle := hy.length_le
    have hpre : y <+: "INSERT INTO ".toList :=
      List.prefix_of_prefix_length_le ⟨v, he.symm⟩ (List.prefix_append _ _) hle
    obtain rfl := hborder y ((List.mem_tails _ _).2 hy) hne hpre
    rw [← List.append_cancel_left he]
    exact not_bare_quote _
  left _ _ _ := trivial
  right := by
    rintro b _ _ s ⟨name, -, -, -, rfl, rfl⟩ _ _
    rfl

/-- After the rule no bare table name follows an `INSERT INTO`. -/
theorem no_bare_quoteInsertTarget (s : List Char) :
    ¬ Occurs Anything "INSERT INTO ".toList Bare (quoteInsertTarget s) := by
  refine (edits_replaceAll insertTarget_finds s).not_occurs (by decide) targetQuoted_foreign ?_
  intro b v _ hv hk
  obtain ⟨c, v, rfl⟩ : ∃ c w, v = c :: w := by
    cases v with
    | nil => simp [Bare] at hv
    | cons c v => exact ⟨c, v, rfl⟩
  have hc : inBareName c = true := by simpa [Bare] using hv
  simp only [Pattern.Declines, insertTarget] at hk
  generalize "INSERT INTO ".toList = keyword at hk
  simp [hc] at hk

/-- Behind every `INSERT INTO` stands a double quote, a blank or an opening parenthesis. -/
def TargetsQuoted (s : List Char) : Prop :=
  ∀ u c v, s = u ++ ("INSERT INTO ".toList ++ c :: v) → c = '"' ∨ isBlank c = true ∨ c = '('

theorem targetsQuoted_iff {s : List Char} :
    TargetsQuoted s ↔ ¬ Occurs Anything "INSERT INTO ".toList Bare s := by
  constructor
  · rintro h ⟨u, v, hs, -, hv⟩
    cases v with
    | nil => simp [Bare] at hv
    | cons c v =>
      have := h u c v hs
      simp [Bare, inBareName] at hv
      simp [hv] at this
  · intro h u c v hs
    by_contra hc
    refine h ⟨u, c :: v, hs, trivial, ?_⟩
    simpa [Bare, inBareName, and_assoc] using hc

end SqlDump.Rule
