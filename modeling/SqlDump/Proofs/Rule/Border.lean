import SqlDump.Proofs.Rule.BlankLines
import SqlDump.Proofs.Rule.Casing
import SqlDump.Proofs.Rule.Quoting
import SqlDump.Proofs.Rule.Value
import SqlDump.Proofs.Text.Cut
import SqlDump.Rule.Directive
/-!
# The borders that cut the rules

Most rules look for a fixed text, and a border cuts them if that text does not occur across it. A rule
over words is cut at every character that belongs to no word.
-/

namespace SqlDump.Rule

open Text

/-! ## What the hits open with -/

theorem pragma_opens : Pattern.Opens pragma "PRAGMA".toList where
  ne_nil := by decide
  blind _ _ := rfl
  declines {s} h := by
    rw [← List.isPrefixOf_iff_prefix] at h
    unfold pragma
    exact if_neg h

theorem reference_opens : Pattern.Opens reference "REFERENCES ".toList where
  ne_nil := by decide
  blind _ _ := rfl
  declines {s} h := by
    rw [← List.isPrefixOf_iff_prefix] at h
    unfold reference
    exact if_neg h

theorem insertTarget_opens : Pattern.Opens insertTarget "INSERT INTO ".toList where
  ne_nil := by decide
  blind _ _ := rfl
  declines {s} h := by
    rw [← List.isPrefixOf_iff_prefix] at h
    unfold insertTarget
    exact if_neg h

theorem literal_opens {sought : List Char} (written : List Char) (hne : sought ≠ []) :
    Pattern.Opens (literal sought written) sought where
  ne_nil := hne
  blind _ _ := rfl
  declines {s} h := by
    rw [← List.isPrefixOf_iff_prefix] at h
    exact if_neg h

theorem backticked_opens : Pattern.Opens backticked ['\x60'] where
  ne_nil := by simp
  blind _ _ := rfl
  declines {s} h := by
    unfold backticked
    split
    · exact absurd (List.prefix_append ['\x60'] _) h
    · rfl

theorem blankLines_opens : Pattern.Opens blankLines ['\n'] where
  ne_nil := by simp
  blind _ _ := rfl
  declines {s} h := by
    unfold blankLines
    split
    · exact absurd (List.prefix_append ['\n'] _) h
    · rfl

theorem doublyQuoted_opens : Pattern.Opens doublyQuoted ['"', '"'] where
  ne_nil := by simp
  blind _ _ := rfl
  declines {s} h := by
    unfold doublyQuoted
    split
    · exact absurd (List.prefix_append ['"', '"'] _) h
    · rfl

/-! ## Directives and names in backticks -/

/-- A directive goes, with its semicolon. -/
def DirectiveRemoved : EditAt := fun _ old new _ =>
  ∃ body, body ≠ [] ∧ ';' ∉ body ∧ old = "PRAGMA".toList ++ (body ++ [';']) ∧ new = []

theorem pragma_finds : Pattern.Finds pragma DirectiveRemoved := by
  intro before s h hh
  unfold pragma at hh
  generalize hk : "PRAGMA".toList = keyword at hh
  dsimp only at hh
  split at hh
  case isFalse => cases hh
  case isTrue hkw =>
    obtain ⟨tail, rfl⟩ := List.isPrefixOf_iff_prefix.1 hkw
    obtain ⟨body, rest, rfl, hbody, hrest, hall, -⟩ := exists_span (· != ';') tail
    rw [List.drop_left, hbody, hrest] at hh
    split at hh
    case isFalse => cases hh
    case isTrue hcond =>
      cases hh
      simp only [Bool.and_eq_true, Bool.not_eq_true', List.isEmpty_eq_false_iff, beq_iff_eq] at hcond
      obtain ⟨hne, hclose⟩ := hcond
      obtain ⟨rest, rfl⟩ := List.head?_eq_some_iff.1 hclose
      refine ⟨keyword ++ (body ++ [';']), rest, by simp, by simp, by simp; omega, body, hne, ?_, by rw [hk], rfl⟩
      intro h
      simpa using hall _ h

theorem stripPragmas_eq_self {s : List Char} (h : ';' ∉ s) : stripPragmas s = s := by
  refine replaceAll_eq_self pragma_finds ?_
  rintro b old new v hv ⟨body, -, -, rfl, -⟩
  exact h (hv.subset (by simp))

theorem stripPragmas_append {s t : List Char} (hno : ¬ "PRAGMA".toList <:+: s)
    (h : Apart "PRAGMA".toList s t) : stripPragmas (s ++ t) = s ++ stripPragmas t :=
  pragma_opens.replaceAll_append hno h

/-- A name in backticks. -/
def inBackticks (name : List Char) : List Char := '\x60' :: (name ++ ['\x60'])

/-- A name comes from backticks into double quotes. -/
def TicksReplaced : EditAt := fun _ old new _ =>
  ∃ name, name ≠ [] ∧ '\x60' ∉ name ∧ old = inBackticks name ∧ new = quoted name

theorem backticked_finds : Pattern.Finds backticked TicksReplaced := by
  intro before s h hh
  unfold backticked at hh
  split at hh
  case h_2 => cases hh
  case h_1 tail =>
    obtain ⟨name, rest, rfl, hname, hrest, hn, -⟩ := exists_span (· != '\x60') tail
    dsimp only at hh
    rw [hname, hrest] at hh
    split at hh
    case isFalse => cases hh
    case isTrue hcond =>
      cases hh
      simp only [Bool.and_eq_true, Bool.not_eq_true', List.isEmpty_eq_false_iff, beq_iff_eq] at hcond
      obtain ⟨hne, hclose⟩ := hcond
      obtain ⟨rest, rfl⟩ := List.head?_eq_some_iff.1 hclose
      refine ⟨inBackticks name, rest, by simp [inBackticks], by simp [inBackticks], by simp [inBackticks], name,
        hne, fun hmem => ?_, rfl, rfl⟩
      simpa using hn _ hmem

theorem quoteBackticked_append {s : List Char} (hs : '\x60' ∉ s) (t : List Char) :
    quoteBackticked (s ++ t) = s ++ quoteBackticked t :=
  backticked_opens.replaceAll_append (fun h => hs (h.subset (by simp))) (.singleton _ s t)

theorem quoteBackticked_eq_self {s : List Char} (hs : '\x60' ∉ s) : quoteBackticked s = s :=
  backticked_opens.replaceAll_eq_self fun h => hs (h.subset (by simp))

theorem quoteBackticked_name {name : List Char} (hne : name ≠ []) (hname : '\x60' ∉ name)
    (t : List Char) : quoteBackticked (inBackticks name ++ t) = quoted name ++ quoteBackticked t := by
  refine backticked_opens.replaceAll_hit (by simp [inBackticks]) ?_
  have htake := takeWhile_append_cons_of_not_mem hname t
  simp [backticked, inBackticks, htake, hne]

/-! ## Names in doubled quotes -/

theorem doublyQuoted_name {name : List Char} (hne : name ≠ []) (hquote : '"' ∉ name)
    (before : Option Char) (s : List Char) :
    doublyQuoted before ('"' :: '"' :: (name ++ '"' :: '"' :: s)) =
      some ⟨name.length + 4, quoted name⟩ := by
  have htake := takeWhile_append_cons_of_not_mem hquote ('"' :: s)
  simp [doublyQuoted, htake, hne]

theorem collapse_of_declines {c : Char} {s : List Char} (h : doublyQuoted none (c :: s) = none) :
    collapseDoubledQuotes (c :: s) = c :: collapseDoubledQuotes s :=
  doublyQuoted_opens.replaceAll_of_declines h

theorem collapse_of_name {name : List Char} (hne : name ≠ []) (hquote : '"' ∉ name) (s : List Char) :
    collapseDoubledQuotes ('"' :: '"' :: (name ++ '"' :: '"' :: s)) =
      quoted name ++ collapseDoubledQuotes s := by
  have hhit : doublyQuoted none (['"', '"'] ++ (name ++ ['"', '"']) ++ s) =
      some ⟨(['"', '"'] ++ (name ++ ['"', '"'])).length, quoted name⟩ := by
    simp [doublyQuoted_name hne hquote]
  simpa [collapseDoubledQuotes] using doublyQuoted_opens.replaceAll_hit (by simp) hhit

theorem doublyQuoted_of_few_quotes {s : List Char} (hs : s.count '"' < 4) : doublyQuoted none s = none := by
  cases hh : doublyQuoted none s with
  | none => rfl
  | some hit =>
    obtain ⟨old, rest, rfl, -, -, name, -, -, rfl, -⟩ := doublyQuoted_finds _ _ _ hh
    simp at hs
    omega

theorem collapseDoubledQuotes_eq_self {s : List Char} (h : ¬ ['"', '"'] <:+: s) : collapseDoubledQuotes s = s :=
  doublyQuoted_opens.replaceAll_eq_self h

theorem collapse_of_no_quotes {w : List Char} (hw : '"' ∉ w) : collapseDoubledQuotes w = w :=
  collapseDoubledQuotes_eq_self fun h => hw (h.subset (by simp))

theorem collapse_append {w : List Char} (hw : '"' ∉ w) (s : List Char) :
    collapseDoubledQuotes (w ++ s) = w ++ collapseDoubledQuotes s := by
  apply doublyQuoted_opens.replaceAll_append
  · exact fun h => hw (h.subset (by simp))
  · exact Apart.of_head_not_mem hw _ s

/-! ## Fixed texts and table names -/

theorem literal_cut {sought s t : List Char} (written : List Char) (h : Apart sought s t) :
    Pattern.Cut (literal sought written) s t where
  afresh := rfl
  unseen b v hv hne := by
    unfold literal
    rw [h.isPrefixOf_append hv hne]

theorem insertTarget_cut {s t : List Char} (h : Apart "INSERT INTO ".toList s t)
    (ht : t.head?.any inBareName = false) : Pattern.Cut insertTarget s t where
  afresh := rfl
  unseen b v hv hne := by
    simp only [insertTarget, h.isPrefixOf_append hv hne]
    split
    case isFalse => rfl
    case isTrue hk =>
      obtain ⟨tail, rfl⟩ := List.isPrefixOf_iff_prefix.1 hk
      obtain ⟨name, rest, rfl, hname, -, hall, hstop⟩ := exists_span inBareName tail
      have htake : (name ++ rest ++ t).takeWhile inBareName = name := by
        rw [List.append_assoc]
        refine takeWhile_append_of_stop hall ?_
        cases rest with
        | nil => exact ht
        | cons c rest => exact hstop
      rw [List.append_assoc, List.drop_left, List.drop_left, htake, hname]

theorem quoteInsertTarget_append {s t : List Char} (h : Apart "INSERT INTO ".toList s t)
    (ht : t.head?.any inBareName = false) :
    quoteInsertTarget (s ++ t) = quoteInsertTarget s ++ quoteInsertTarget t :=
  (insertTarget_cut h ht).replaceAll insertTarget_finds

theorem plainDefaultTime_append {s t : List Char}
    (h : Apart "DEFAULT (CURRENT_TIMESTAMP)".toList s t) :
    plainDefaultTime (s ++ t) = plainDefaultTime s ++ plainDefaultTime t :=
  (literal_cut _ h).replaceAll (literal_finds _ (by decide))

theorem defaultLeadingNull_append {s t : List Char} (h : Apart "VALUES(NULL,".toList s t) :
    defaultLeadingNull (s ++ t) = defaultLeadingNull s ++ defaultLeadingNull t :=
  (literal_cut _ h).replaceAll (literal_finds _ (by decide))

theorem plainDefaultTime_eq_self {s : List Char}
    (h : ¬ "DEFAULT (CURRENT_TIMESTAMP)".toList <:+: s) : plainDefaultTime s = s :=
  (literal_opens _ (by decide)).replaceAll_eq_self h

theorem defaultLeadingNull_eq_self {s : List Char} (h : ¬ "VALUES(NULL,".toList <:+: s) :
    defaultLeadingNull s = s :=
  (literal_opens _ (by decide)).replaceAll_eq_self h

theorem quoteInsertTarget_eq_self {s : List Char} (h : ¬ "INSERT INTO ".toList <:+: s) :
    quoteInsertTarget s = s :=
  insertTarget_opens.replaceAll_eq_self h

/-- Quoted table names are kept. -/
theorem quoteInsertTarget_of_targetsQuoted {s : List Char} (h : TargetsQuoted s) : quoteInsertTarget s = s := by
  rw [targetsQuoted_iff] at h
  refine replaceAll_eq_self insertTarget_finds ?_
  rintro b _ _ v ⟨u, hu⟩ ⟨name, hne, hname, -, rfl, -⟩
  obtain ⟨c, name, rfl⟩ := List.exists_cons_of_ne_nil hne
  refine h ⟨u, c :: (name ++ v), ?_, trivial, ?_⟩
  · rw [← hu, List.append_assoc]
    rfl
  · exact hname c List.mem_cons_self

/-! ## Blank lines -/

theorem blankLines_cut {s t : List Char} (ht : t.head?.any isBlank = false) : Pattern.Cut blankLines s t where
  afresh := rfl
  unseen b v _ hne := by
    obtain ⟨c, v, rfl⟩ := List.exists_cons_of_ne_nil hne
    by_cases hc : c = '\n'
    · obtain ⟨w, rest, rfl, hw, -, hall, hstop⟩ := exists_span isBlank v
      have htake : (w ++ rest ++ t).takeWhile isBlank = w := by
        rw [List.append_assoc]
        refine takeWhile_append_of_stop hall ?_
        cases rest with
        | nil => exact ht
        | cons d rest => exact hstop
      subst hc
      simp only [blankLines, List.cons_append, htake, hw]
    · have hno : ∀ x, ¬ ['\n'] <+: c :: x := fun x h => hc (List.cons_prefix_cons.1 h).1.symm
      rw [blankLines_opens.blind, blankLines_opens.blind b, List.cons_append,
        blankLines_opens.declines (hno _), blankLines_opens.declines (hno _)]

theorem collapseBlankLines_append {s t : List Char} (ht : t.head?.any isBlank = false) :
    collapseBlankLines (s ++ t) = collapseBlankLines s ++ collapseBlankLines t :=
  (blankLines_cut ht).replaceAll blankLines_finds

theorem collapseBlankLines_eq_self {s : List Char} (h : '\n' ∉ s) : collapseBlankLines s = s :=
  blankLines_opens.replaceAll_eq_self fun hs => h (hs.subset (by simp))

/-! ## Words and phrases -/

theorem take_map_beq (fold : Char → Char) (phrase s : List Char) :
    ((s.take phrase.length).map fold == phrase) = phrase.isPrefixOf (s.map fold) := by
  rw [Bool.eq_iff_iff, beq_iff_eq, List.isPrefixOf_iff_prefix, List.map_take, List.prefix_iff_eq_take]
  exact eq_comm

/-- A phrase that starts with a word character is found nowhere else. -/
theorem wholeWord_eq_none {fold : Char → Char} {phrase t : List Char} (before : Option Char)
    (written : List Char) (hfold : ∀ c, isWord (fold c) = true → isWord c = true)
    (hp : startsInWord phrase = true) (ht : startsInWord t = false) :
    wholeWord fold phrase written before t = none := by
  have hno : phrase.isPrefixOf (t.map fold) = false := by
    cases phrase with
    | nil => cases hp
    | cons c phrase =>
      cases t with
      | nil => rfl
      | cons d t =>
        refine Bool.eq_false_iff.2 fun hpre => ?_
        rw [List.isPrefixOf_iff_prefix, List.map_cons, List.cons_prefix_cons] at hpre
        obtain ⟨rfl, -⟩ := hpre
        have hd := hfold d hp
        rw [startsInWord_cons, hd] at ht
        cases ht
  unfold wholeWord
  rw [take_map_beq, hno, Bool.and_false, Bool.false_and]
  exact if_neg Bool.false_ne_true

theorem wholeWord_cut {fold : Char → Char} {phrase s t : List Char} (written : List Char)
    (hfold : ∀ c, isWord (fold c) = true → isWord c = true) (hp : startsInWord phrase = true)
    (h : Apart phrase (s.map fold) (t.map fold)) (ht : startsInWord t = false) :
    Pattern.Cut (wholeWord fold phrase written) s t where
  afresh := by
    rw [wholeWord_eq_none _ written hfold hp ht, wholeWord_eq_none _ written hfold hp ht]
  unseen b v hv hne := by
    unfold wholeWord
    rw [take_map_beq, take_map_beq, List.map_append,
      h.isPrefixOf_append (hv.map fold) (by simpa using hne)]
    by_cases hk : phrase.isPrefixOf (v.map fold) = true
    · have hlen : phrase.length ≤ v.length := by
        simpa using (List.isPrefixOf_iff_prefix.1 hk).length_le
      have hdrop : startsInWord ((v ++ t).drop phrase.length) = startsInWord (v.drop phrase.length) := by
        rw [List.drop_append_of_le_length hlen]
        cases v.drop phrase.length with
        | nil => exact ht
        | cons c x => rfl
      rw [hdrop]
    · simp [hk]

theorem serialKeys_append {s t : List Char} (h : Apart keyPhrase (s.map foldCase) (t.map foldCase))
    (ht : startsInWord t = false) : serialKeys (s ++ t) = serialKeys s ++ serialKeys t :=
  (wholeWord_cut _ (fun _ => isWord_of_foldCase) (by decide) h ht).replaceAll
    (wholeWord_finds _ (by decide))

theorem replaceFrom_wholeWord {fold : Char → Char} {phrase t : List Char} (before : Option Char)
    (written : List Char) (hfold : ∀ c, isWord (fold c) = true → isWord c = true)
    (hp : startsInWord phrase = true) (ht : startsInWord t = false) :
    replaceFrom (wholeWord fold phrase written) before t = replaceAll (wholeWord fold phrase written) t := by
  apply replaceFrom_congr
  rw [wholeWord_eq_none before written hfold hp ht, wholeWord_eq_none none written hfold hp ht]

theorem replaceAll_wholeWord_cons {fold : Char → Char} {phrase : List Char} {c : Char} (written : List Char)
    (hfold : ∀ c, isWord (fold c) = true → isWord c = true) (hp : startsInWord phrase = true)
    (hc : isWord c = false) (s : List Char) :
    replaceAll (wholeWord fold phrase written) (c :: s) = c :: replaceAll (wholeWord fold phrase written) s := by
  have hbefore : wholeWord fold phrase written (some c) s = wholeWord fold phrase written none s := by
    have hends : endsInWord (some c) = endsInWord none := hc
    unfold wholeWord
    rw [hends]
  rw [replaceAll_eq_replaceFrom, replaceFrom_cons_of_none (wholeWord_eq_none none written hfold hp hc),
    replaceFrom_congr hbefore]
  rfl

theorem serialKeys_cons {c : Char} (hc : isWord c = false) (s : List Char) :
    serialKeys (c :: s) = c :: serialKeys s :=
  replaceAll_wholeWord_cons _ (fun _ => isWord_of_foldCase) (by decide) hc s

theorem eq_blank_of_foldCase {c : Char} (h : foldCase c = ' ') : c = ' ' := by
  unfold foldCase at h
  split at h
  · cases h
  · split at h
    · cases h
    · unfold Char.toLower at h
      split at h
      case isTrue hu =>
        have hval := congrArg Char.toNat h
        have hlow := UInt32.le_iff_toNat_le.1 hu.1
        have hhigh := UInt32.le_iff_toNat_le.1 hu.2
        have hcodes : 'A'.val.toNat = 65 ∧ 'Z'.val.toNat = 90 ∧ ' '.val.toNat = 32 ∧
            ('a'.val - 'A'.val).toNat = 32 := by decide
        simp only [Char.toNat, UInt32.toNat_add] at hval
        omega
      case isFalse => exact h

/-- The phrase of a counting key has three blanks. -/
theorem serialKeys_eq_self {s : List Char} (h : s.count ' ' < 3) : serialKeys s = s := by
  refine replaceAll_eq_self (wholeWord_finds _ (by decide)) ?_
  rintro b old new v hv ⟨-, hold, -, -⟩
  have hold : old.map foldCase = keyPhrase := hold
  have hcount : old.count ' ' = 3 := by
    have hkey : keyPhrase.count ' ' = 3 := by decide
    rw [← hkey, ← hold, List.count_eq_countP, List.count_eq_countP, List.countP_map]
    refine List.countP_congr fun c _ => ?_
    simp only [Function.comp_apply, beq_iff_eq]
    constructor
    · rintro rfl
      rfl
    · exact eq_blank_of_foldCase
  have hle := (List.sublist_append_left old v).trans hv.sublist |>.count_le ' '
  omega

/-! ## Single words -/

/-- The rule rewrites each word on its own, to a word as long, and leaves words of more than seven
characters. -/
def RewritesWords (rule : List Char → List Char) : Prop :=
  ∃ f : List Char → List Char, rule = mapWords f ∧ ∀ w, (∀ c ∈ w, isWord c = true) →
    (∀ c ∈ f w, isWord c = true) ∧ (f w).length = w.length ∧ (7 < w.length → f w = w)

theorem suffix_of_not_mem {k w s : List Char} {c : Char} (hc : c ∉ k) (h : k <:+ w ++ c :: s) :
    k <:+ s := by
  rcases List.suffix_or_suffix_of_suffix h (List.suffix_append w (c :: s)) with h | h
  · rcases List.suffix_cons_iff.1 h with rfl | h
    · exact absurd List.mem_cons_self hc
    · exact h
  · exact absurd (h.subset List.mem_cons_self) hc

/-- A word that ends within a text ends with its first word, or behind it. -/
theorem infix_behind_word {k w s : List Char} {c d : Char} (hk : c ∉ k)
    (hd : d ∉ w) (h : k ++ [d] <:+: w ++ c :: s) : k <:+ w ∧ d = c ∨ k ++ [d] <:+: s := by
  obtain ⟨u, v, h⟩ := h
  have h : (u ++ k) ++ d :: v = w ++ c :: s := by simpa using h
  rcases List.append_eq_append_iff.1 h with ⟨a, rfl, ha⟩ | ⟨a, ha, hs⟩
  · cases a with
    | nil => exact .inl ⟨by simp, (List.cons.inj ha).1⟩
    | cons e a =>
      obtain ⟨rfl, -⟩ := List.cons.inj ha
      simp at hd
  · cases a with
    | nil => exact .inl ⟨⟨u, by simpa using ha⟩, (List.cons.inj hs).1.symm⟩
    | cons e a =>
      obtain ⟨rfl, rfl⟩ := List.cons.inj hs
      obtain ⟨x, rfl⟩ := suffix_of_not_mem hk ⟨u, ha⟩
      exact .inr ⟨x, v, by simp⟩

namespace RewritesWords

variable {rule rule' : List Char → List Char}

theorem append_cons (h : RewritesWords rule) (s t : List Char) {c : Char} (hc : isWord c = false) :
    rule (s ++ c :: t) = rule s ++ c :: rule t := by
  obtain ⟨f, rfl, -⟩ := h
  exact mapWords_append_of_not_isWord f s t hc

theorem word (h : RewritesWords rule) {w : List Char} (hw : ∀ c ∈ w, isWord c = true) :
    (∀ c ∈ rule w, isWord c = true) ∧ (rule w).length = w.length := by
  obtain ⟨f, rfl, hf⟩ := h
  rw [mapWords_word f hw]
  exact ⟨(hf w hw).1, (hf w hw).2.1⟩

theorem word_ne_nil (h : RewritesWords rule) {w : List Char} (hw : w ≠ [] ∧ ∀ c ∈ w, isWord c = true) :
    rule w ≠ [] ∧ ∀ c ∈ rule w, isWord c = true := by
  obtain ⟨hword, hlen⟩ := h.word hw.2
  refine ⟨fun hnil => hw.1 ?_, hword⟩
  rw [hnil] at hlen
  exact List.length_eq_zero_iff.1 hlen.symm

theorem nil (h : RewritesWords rule) : rule [] = [] :=
  List.length_eq_zero_iff.1 (h.word (w := []) (by simp)).2

theorem cons (h : RewritesWords rule) {c : Char} (hc : isWord c = false) (s : List Char) :
    rule (c :: s) = c :: rule s := by
  have := h.append_cons [] s hc
  rwa [List.nil_append, h.nil, List.nil_append] at this

/-- Words in double quotes stay there. -/
theorem quoted (h : RewritesWords rule) (name : List Char) :
    rule (Rule.quoted name) = Rule.quoted (rule name) := by
  have hq : isWord '"' = false := by decide
  unfold Rule.quoted
  rw [h.cons hq, h.append_cons _ _ hq, h.nil]

theorem comp (h : RewritesWords rule) (h' : RewritesWords rule') : RewritesWords fun s => rule' (rule s) := by
  obtain ⟨f, rfl, hf⟩ := h
  obtain ⟨g, rfl, hg⟩ := h'
  refine ⟨fun w => g (f w), ?_, ?_⟩
  · funext s
    exact mapWords_mapWords (fun w hw => (hf w hw).1) s
  · intro w hw
    obtain ⟨hword, hlen, hlong⟩ := hf w hw
    obtain ⟨hword', hlen', hlong'⟩ := hg _ hword
    refine ⟨hword', hlen'.trans hlen, fun h => ?_⟩
    exact (hlong' (hlen ▸ h)).trans (hlong h)

/-- A long word at the end of a text stays there, be it the end of a longer word. -/
theorem suffix (h : RewritesWords rule) {k s : List Char} (hk : ∀ c ∈ k, isWord c = true)
    (hlen : 7 < k.length) (hs : k <:+ s) : k <:+ rule s := by
  obtain ⟨f, rfl, hf⟩ := h
  induction s using word_induction with
  | word w hw => rwa [mapWords_word f hw, (hf w hw).2.2 (hlen.trans_le hs.length_le)]
  | cons w c s hw hc ih =>
    rw [mapWords_append_cons f s hw hc]
    have hck : c ∉ k := fun h => Bool.eq_false_iff.1 hc (hk c h)
    exact (ih (suffix_of_not_mem hck hs)).trans ((List.suffix_cons c _).trans (List.suffix_append _ _))

/-- Where a long word ends in the result, one ended in the source. -/
theorem infix_source (h : RewritesWords rule) {k s : List Char} {d : Char} (hk : ∀ c ∈ k, isWord c = true)
    (hlen : 7 < k.length) (hd : isWord d = false) (ht : k ++ [d] <:+: rule s) : k ++ [d] <:+: s := by
  obtain ⟨f, rfl, hf⟩ := h
  induction s using word_induction with
  | word w hw =>
    rw [mapWords_word f hw] at ht
    rw [(hf w hw).1 d (ht.subset (by simp))] at hd
    cases hd
  | cons w c s hw hc ih =>
    rw [mapWords_append_cons f s hw hc] at ht
    obtain ⟨hword, hwlen, hlong⟩ := hf w hw
    have hck : c ∉ k := fun h => Bool.eq_false_iff.1 hc (hk c h)
    have hdw : d ∉ f w := fun h => Bool.eq_false_iff.1 hd (hword d h)
    rcases infix_behind_word hck hdw ht with ⟨hkw, rfl⟩ | ht
    · rw [hlong (hwlen ▸ hlen.trans_le hkw.length_le)] at hkw
      obtain ⟨u, rfl⟩ := hkw
      exact ⟨u, s, by simp⟩
    · exact (ih ht).trans ((List.suffix_cons c s).trans (List.suffix_append w _)).isInfix

end RewritesWords

/-- No word of more than seven characters is in capitals, if none of those that are chosen is longer. -/
theorem rewritesWords_upcaseIf {chosen : List Char → Bool} (hshort : ∀ w, chosen w = true → w.length ≤ 7) :
    RewritesWords (mapWords (upcaseIf chosen)) := by
  refine ⟨upcaseIf chosen, rfl, fun w hw => ⟨word_upcaseIf chosen hw, length_upcaseIf chosen w, fun hlong => ?_⟩⟩
  refine if_neg fun h => ?_
  exact absurd (hshort w h) (Nat.not_le_of_lt hlong)

theorem not_infix_upcaseTypes {f s : List Char} (hf : f ≠ [])
    (hno : ∀ name ∈ typeNames, NoOverlap f (name.toList.map Char.toUpper)) (h : ¬ f <:+: s) :
    ¬ f <:+: upcaseTypes s := by
  have hne : ∀ name ∈ typeNames, name.toList ≠ [] ∧ name.toList.map Char.toUpper ≠ [] := by decide
  unfold upcaseTypes
  generalize typeNames = names at hno hne
  induction names generalizing s with
  | nil => exact h
  | cons name names ih =>
    rw [List.forall_mem_cons] at hno hne
    refine ih ?_ hno.2 hne.2
    refine (edits_replaceAll (wholeWord_finds _ hne.1.1) s).not_infix_result hf ?_ h
    exact .of_written_anything (fun e => e.2.2.2) hne.1.2 hno.1

theorem rewritesWords_upcaseTypes : RewritesWords upcaseTypes := by
  have hshort : ∀ name ∈ typeNames, name.toList.length ≤ 7 := by decide
  rw [funext upcaseTypes_eq]
  refine rewritesWords_upcaseIf fun w hw => ?_
  obtain ⟨name, hname, hw⟩ := List.any_eq_true.1 hw
  have hlen := congrArg List.length (eq_of_beq hw)
  rw [List.length_map] at hlen
  exact hlen ▸ hshort name hname

theorem rewritesWords_upcaseBooleans : RewritesWords upcaseBooleans := by
  rw [funext upcaseBooleans_eq]
  refine rewritesWords_upcaseIf fun w hw => ?_
  simp only [isTruthValue, Bool.or_eq_true, beq_iff_eq] at hw
  rcases hw with rfl | rfl
  · decide
  · decide

end SqlDump.Rule
