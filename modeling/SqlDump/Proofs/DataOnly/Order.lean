import SqlDump.Proofs.DataOnly.Independence
import SqlDump.Proofs.Rule.Truth
/-!
# The order of the value rules

Behind the quoting of table names four rules go over the values, one after another. None of them
creates, destroys or moves what another one looks for, so that their order does not matter
(`body_of_perm`). Slots and words are rewritten between the same delimiters and are compared atom by
atom. Collapsing doubled quotes comes down to `QuoteWise`: the other rules treat the parts between
double quotes one by one.
-/

namespace SqlDump.DataOnly

open Rule Text Time

/-! ## Slots and epoch values -/

theorem mapWords_epochText (zone : Zone) (s : List Char) :
    mapWords zone.epochText s = (zone.convertEpochs s).1 := by
  rw [convertEpochs_eq]

theorem isDelimiter_of_isDigit {c : Char} (hc : c.isDigit = true) : isDelimiter c = false := by
  refine Bool.eq_false_iff.2 fun h => ?_
  have hword := isWord_of_isDelimiter h
  rw [isWord_of_isDigit hc] at hword
  cases hword

theorem plain_epochText (zone : Zone) (w : List Char) (hw : Plain w) : Plain (zone.epochText w) := by
  unfold Zone.epochText
  split
  case isTrue he =>
    obtain ⟨stamp, heq, hstamp⟩ := epochLiteral_eq zone he
    rw [heq]
    intro c hc
    simp only [EpochLiteral.text, singleQuoted, List.mem_cons, List.mem_append, List.not_mem_nil,
      or_false] at hc
    rcases hc with rfl | hc | rfl
    · rfl
    · rcases hstamp.chars c hc with hc | hc
      · exact isDelimiter_of_isDigit hc
      · have key : ∀ c ∈ ['-', ' ', ':'], isDelimiter c = false := by simp [isDelimiter]
        exact key c hc
    · rfl
  case isFalse => exact hw

/-- Neither value of the slot holds an epoch value, and no time stamp can stand for the old one or be
the stem. -/
def Timeless (p : Slot) : Bool :=
  p.stem.all (fun c => isWord c && !c.isDigit) && !p.old.contains '\x27' &&
    (words p.old ++ words p.new).all fun w => !isEpochWord w

theorem timeless_iff {p : Slot} : Timeless p = true ↔
    (∀ c ∈ p.stem, isWord c = true ∧ c.isDigit = false) ∧ '\x27' ∉ p.old ∧
      (∀ w ∈ words p.old, isEpochWord w = false) ∧ ∀ w ∈ words p.new, isEpochWord w = false := by
  simp [Timeless, forall_and, and_assoc]

theorem mapWords_epochText_eq_self (zone : Zone) {s : List Char} (h : ∀ w ∈ words s, isEpochWord w = false) :
    mapWords zone.epochText s = s := by
  rw [mapWords_epochText, convertEpochs_eq_self zone h]

/-- Where something is written there stands a single quote. -/
theorem mapWords_epochText_cases (zone : Zone) (s : List Char) :
    mapWords zone.epochText s = s ∨ '\x27' ∈ mapWords zone.epochText s := by
  have hword : ∀ w, zone.epochText w = w ∨ '\x27' ∈ zone.epochText w := by
    intro w
    by_cases hw : isEpochWord w = true
    · obtain ⟨stamp, heq, -⟩ := epochLiteral_eq zone hw
      simp [Zone.epochText, hw, heq, EpochLiteral.text, singleQuoted]
    · exact .inl (if_neg hw)
  induction s using word_induction with
  | word w hw =>
    rw [mapWords_word _ hw]
    exact hword w
  | cons w c s hw hc ih =>
    rw [mapWords_append_cons _ s hw hc]
    rcases hword w with h | h
    · rw [h]
      exact ih.imp (congrArg (w ++ c :: ·)) fun h => by simp [h]
    · exact .inr (List.mem_append_left _ h)

/-- Writing time stamps makes and takes no value without single quotes and epoch values. -/
theorem mapWords_epochText_eq_iff (zone : Zone) {s old : List Char} (hquote : '\x27' ∉ old)
    (hold : ∀ w ∈ words old, isEpochWord w = false) : mapWords zone.epochText s = old ↔ s = old := by
  constructor
  · intro h
    rcases mapWords_epochText_cases zone s with hs | hs
    · exact hs.symm.trans h
    · exact absurd (h ▸ hs) hquote
  · rintro rfl
    exact mapWords_epochText_eq_self zone hold

theorem suffix_append_cons_iff {k s : List Char} {c : Char} (hc : c ∉ k) (w : List Char) :
    k <:+ w ++ c :: s ↔ k <:+ s :=
  ⟨suffix_of_not_mem hc, fun h => h.trans ((List.suffix_cons c s).trans (List.suffix_append w _))⟩

/-- A text of letters that a text ends with is no part of an epoch value or of a time stamp. -/
theorem suffix_mapWords_epochText (zone : Zone) {k : List Char}
    (hk : ∀ c ∈ k, isWord c = true ∧ c.isDigit = false) (s : List Char) :
    k <:+ mapWords zone.epochText s ↔ k <:+ s := by
  have hsep : ∀ c, isWord c = false → c ∉ k := by
    intro c hc hmem
    rw [(hk c hmem).1] at hc
    cases hc
  have hword : ∀ w, k <:+ zone.epochText w ↔ k <:+ w := by
    intro w
    by_cases hw : isEpochWord w = true
    · obtain ⟨stamp, heq, -⟩ := epochLiteral_eq zone hw
      have hquote : '\x27' ∉ k := hsep _ (by decide)
      have htext : zone.epochText w = ('\x27' :: stamp) ++ '\x27' :: [] := by
        simp [Zone.epochText, hw, heq, EpochLiteral.text, singleQuoted]
      rw [htext, suffix_append_cons_iff hquote, List.suffix_nil]
      constructor
      · rintro rfl
        exact List.nil_suffix
      · intro h
        apply List.eq_nil_iff_forall_not_mem.2
        intro c hc
        have hdigit := (isEpochWord_iff.1 hw).2.1 c (h.subset hc)
        rw [(hk c hc).2] at hdigit
        cases hdigit
    · rw [Zone.epochText, if_neg hw]
  induction s using word_induction with
  | word w hw => rw [mapWords_word _ hw, hword]
  | cons w c s hw hc ih =>
    rw [mapWords_append_cons _ s hw hc, suffix_append_cons_iff (hsep c hc),
      suffix_append_cons_iff (hsep c hc)]
    exact ih

/-- Time stamps neither make nor take a match of the slot, and none is written for its values. -/
theorem independent_wordSweep (zone : Zone) {p : Slot} (hp : Timeless p = true) :
    p.sweep.Independent (wordSweep (plain_epochText zone)) := by
  obtain ⟨hstem, hquote, hold, hnew⟩ := timeless_iff.1 hp
  have hhits : ∀ free (a : Atom), p.hits free (a.withText (mapWords zone.epochText a.text)) = p.hits free a := by
    intro free a
    rw [Bool.eq_iff_iff, Slot.hits_iff, Slot.hits_iff]
    simp only [Atom.withText_before, Atom.withText_text, Atom.withText_behind,
      mapWords_epochText_eq_iff zone hquote hold]
  refine ⟨?_, ?_, ?_⟩
  · intro free _ a
    have hsuffix : p.stem.isSuffixOf (mapWords zone.epochText a.text) = p.stem.isSuffixOf a.text := by
      rw [Bool.eq_iff_iff, List.isSuffixOf_iff_suffix, List.isSuffixOf_iff_suffix,
        suffix_mapWords_epochText zone hstem]
    simp only [Slot.sweep, wordSweep, hhits, Atom.withText_text, hsuffix]
  · intro _ _ _
    rfl
  · intro free _ a
    simp only [Slot.sweep, wordSweep, hhits, Atom.withText_text]
    split
    · exact (mapWords_epochText_eq_self zone hnew).symm
    · rfl

theorem rewrite_convertEpochs (zone : Zone) {p : Slot} (hp : Timeless p = true) (s : List Char) :
    p.rewrite (zone.convertEpochs s).1 = (zone.convertEpochs (p.rewrite s)).1 := by
  simp only [← mapWords_epochText, mapWords_eq_apply (plain_epochText zone), Slot.rewrite_eq,
    (independent_wordSweep zone hp).apply_comm]

/-- The number of epoch values in a text. -/
def epochCount (s : List Char) : Nat := (words s).countP isEpochWord

theorem epochCount_eq (s : List Char) : epochCount s = ((atoms s).map fun a => epochCount a.text).sum := by
  unfold epochCount
  rw [words_eq_flatMap_atoms, List.countP_flatMap]
  rfl

theorem epochCount_eq_zero {s : List Char} (h : ∀ w ∈ words s, isEpochWord w = false) : epochCount s = 0 :=
  List.countP_eq_zero.2 fun w hw => by simp [h w hw]

theorem epochCount_rewrite {p : Slot} (hp : Timeless p = true) (s : List Char) :
    epochCount (p.rewrite s) = epochCount s := by
  obtain ⟨-, -, hold, hnew⟩ := timeless_iff.1 hp
  rw [epochCount_eq, epochCount_eq s, Slot.rewrite_eq, Sweep.atoms_apply, Sweep.map_run]
  intro free a
  by_cases hhit : p.hits free a = true
  · have hwrite : p.sweep.write free a = p.new := if_pos hhit
    rw [hwrite, (Slot.hits_iff.1 hhit).2.2.1, Atom.withText_text, epochCount_eq_zero hold, epochCount_eq_zero hnew]
  · rw [Slot.write_of_miss (Bool.eq_false_iff.2 hhit), Atom.withText_self]

/-! ## Doubled quotes -/

/-- The rule treats the parts between double quotes one by one, writes no double quote, and no part
comes from or becomes an empty one. -/
structure QuoteWise (rule : List Char → List Char) : Prop where
  nil : rule [] = []
  append : ∀ s t, rule (s ++ '"' :: t) = rule s ++ '"' :: rule t
  not_mem : ∀ s, '"' ∉ s → '"' ∉ rule s
  ne_nil : ∀ s, s ≠ [] → rule s ≠ []

section QuoteWise

variable {rule : List Char → List Char} (h : QuoteWise rule)

include h

/-- Each double quote of the result is one of the text. -/
theorem QuoteWise.exists_source {s u v : List Char} (hs : rule s = u ++ '"' :: v) (hu : '"' ∉ u) :
    ∃ w t, s = w ++ '"' :: t ∧ '"' ∉ w ∧ rule w = u ∧ rule t = v := by
  by_cases hmem : '"' ∈ s
  · obtain ⟨w, t, rfl, hw⟩ := List.eq_append_cons_of_mem hmem
    rw [h.append] at hs
    obtain ⟨hwu, -, htv⟩ :=
      append_cons_inj_of_class (ne_of_not_mem (h.not_mem w hw)) (ne_of_not_mem hu) rfl rfl hs
    exact ⟨w, t, rfl, hw, hwu, htv⟩
  · have hno := h.not_mem s hmem
    rw [hs] at hno
    simp at hno

/-- A name between doubled quotes is found in the result only where one is found in the text. -/
theorem QuoteWise.declines {s : List Char} (hs : doublyQuoted none ('"' :: s) = none) :
    doublyQuoted none ('"' :: rule s) = none := by
  have hnil : ∀ w, rule w = [] → w = [] := fun w hw => by_contra fun hne => h.ne_nil w hne hw
  cases hfound : doublyQuoted none ('"' :: rule s) with
  | none => rfl
  | some hit =>
    obtain ⟨old, rest, hold, -, -, name, hne, hquote, rfl, -⟩ := doublyQuoted_finds _ _ _ hfound
    have hrule : rule s = [] ++ '"' :: (name ++ '"' :: ([] ++ '"' :: rest)) := by simpa using hold
    obtain ⟨w, t, rfl, -, hw, ht⟩ := h.exists_source hrule (by simp)
    obtain ⟨source, t, rfl, hsource, hname, ht⟩ := h.exists_source ht hquote
    obtain ⟨v, t, rfl, -, hv, -⟩ := h.exists_source ht (by simp)
    obtain rfl := hnil w hw
    obtain rfl := hnil v hv
    have hne' : source ≠ [] := by
      rintro rfl
      exact hne (hname.symm.trans h.nil)
    rw [List.nil_append, List.nil_append, doublyQuoted_name hne' hsource] at hs
    cases hs

/-- Collapsing doubled quotes and such a rule may change places. -/
theorem QuoteWise.collapse_comm (s : List Char) :
    collapseDoubledQuotes (rule s) = rule (collapseDoubledQuotes s) := by
  -- behind a name the scan goes on in a shorter text, not in the tail
  induction hn : s.length using Nat.strongRecOn generalizing s with
  | ind n ih =>
    by_cases hmem : '"' ∈ s
    case neg =>
      rw [collapse_of_no_quotes hmem, collapse_of_no_quotes (h.not_mem s hmem)]
    case pos =>
      obtain ⟨w, s, rfl, hw⟩ := List.eq_append_cons_of_mem hmem
      rw [h.append, collapse_append (h.not_mem w hw), collapse_append hw]
      cases hs : doublyQuoted none ('"' :: s) with
      | none =>
        have hlt : s.length < n := by
          rw [← hn, List.length_append, List.length_cons]
          omega
        rw [collapse_of_declines hs, collapse_of_declines (h.declines hs), h.append, ih _ hlt s rfl]
      | some hit =>
        obtain ⟨old, rest, hold, -, -, name, hne, hquote, rfl, -⟩ := doublyQuoted_finds _ _ _ hs
        obtain rfl : s = '"' :: (name ++ '"' :: '"' :: rest) := by simpa using hold
        have hlt : rest.length < n := by
          rw [← hn]
          simp only [List.length_append, List.length_cons]
          omega
        have hcons : ∀ t, rule ('"' :: t) = '"' :: rule t := fun t => by
          simpa [h.nil] using h.append [] t
        rw [hcons, h.append name, hcons, collapse_of_name (h.ne_nil name hne) (h.not_mem name hquote),
          collapse_of_name hne hquote, ih _ hlt rest rfl]
        simp [quoted, h.append]

end QuoteWise

theorem ne_nil_of_edits {Keep : KeepAt} {Edit : EditAt} {before : Option Char} {s t : List Char}
    (h : Edits Keep Edit before s t) (hnew : ∀ {b old new s}, Edit b old new s → new ≠ [])
    (hs : s ≠ []) : t ≠ [] := by
  cases h with
  | nil => exact hs
  | keep _ _ => simp
  | edit e _ => simp [hnew e]

/-- A rule that writes no empty text and no double quotes keeps the parts between them apart. -/
theorem quoteWise_of_edits {rule : List Char → List Char} {Keep : KeepAt} {Edit : EditAt}
    (hedits : ∀ s, Edits Keep Edit none s (rule s))
    (hnew : ∀ {b old new s}, Edit b old new s → new ≠ [] ∧ '"' ∉ new) (hnil : rule [] = [])
    (happend : ∀ s t, rule (s ++ '"' :: t) = rule s ++ '"' :: rule t) : QuoteWise rule where
  nil := hnil
  append := happend
  not_mem s hs := (hedits s).not_mem (fun e hmem => absurd hmem (hnew e).2) hs
  ne_nil s hs := ne_nil_of_edits (hedits s) (fun e => (hnew e).1) hs

theorem quoteWise_convertEpochs (zone : Zone) : QuoteWise fun s => (zone.convertEpochs s).1 := by
  apply quoteWise_of_edits (edits_convertEpochs zone)
  · rintro b _ _ s ⟨-, stamp, rfl, hstamp⟩
    refine ⟨by simp [singleQuoted], fun hmem => ?_⟩
    simp only [singleQuoted, List.mem_cons, List.mem_append, List.not_mem_nil, or_false] at hmem
    rcases hmem with hmem | hmem | hmem
    · cases hmem
    · exact absurd (hstamp.chars _ hmem) (by decide)
    · cases hmem
  · rw [convertEpochs_eq_self zone (by simp)]
  · intro s t
    simp only [← mapWords_epochText]
    exact mapWords_append_of_not_isWord _ s t (by decide)

theorem quoteWise_rewrite {p : Slot} (hsought : '"' ∉ p.sought) (hwritten : '"' ∉ p.written) :
    QuoteWise p.rewrite := by
  have hopens := literal_opens p.written p.sought_ne_nil
  have hfinds := literal_finds p.written p.sought_ne_nil
  apply quoteWise_of_edits (edits_replaceAll hfinds)
  · rintro b _ _ s ⟨-, rfl⟩
    exact ⟨by simp [Slot.written], hwritten⟩
  · rfl
  · intro s t
    have hhead : p.sought.head? ≠ some '"' := fun h => hsought (List.mem_of_head? h)
    have hcut := literal_cut p.written (Apart.of_not_mem hsought s t)
    rw [hcut.replaceAll hfinds, hopens.replaceAll_cons hhead]

/-! ## The four rules -/

theorem delimits_open : isDelimiter '(' = true := rfl

theorem delimits_comma : isDelimiter ',' = true := rfl

/-- The slot of a leading `NULL`. -/
def nullSlot : Slot where
  stem := "VALUES".toList
  left := '('
  old := "NULL".toList
  new := "DEFAULT".toList
  right := ','
  left_delimits := delimits_open
  right_delimits := delimits_comma

theorem defaultLeadingNull_eq (s : List Char) : defaultLeadingNull s = nullSlot.rewrite s := rfl

theorem timeless_slots : ∀ p ∈ nullSlot :: truthSlots, Timeless p = true := by decide

theorem quoteWise_slots : ∀ p ∈ nullSlot :: truthSlots, QuoteWise p.rewrite := by
  have key : ∀ p ∈ nullSlot :: truthSlots, '"' ∉ p.sought ∧ '"' ∉ p.written := by decide
  intro p hp
  exact quoteWise_rewrite (key p hp).1 (key p hp).2

theorem nullSlot_distinct : ∀ p ∈ truthSlots, p.Distinct nullSlot := by decide

/-- The rules over values. -/
inductive ValueRule where
  | epochs
  | truthValues
  | leadingNull
  | doubledQuotes
deriving DecidableEq, Repr

/-- What a rule makes of a text. -/
def ValueRule.apply (zone : Zone) : ValueRule → List Char → List Char
  | .epochs, s => (zone.convertEpochs s).1
  | .truthValues, s => booleanValues s
  | .leadingNull, s => defaultLeadingNull s
  | .doubledQuotes, s => collapseDoubledQuotes s

/-- A rule at work on a text, with the counts of the epoch values so far. -/
def ValueRule.step (zone : Zone) (x : List Char × EpochCounts) (rule : ValueRule) : List Char × EpochCounts :=
  (rule.apply zone x.1, if rule = .epochs then (zone.convertEpochs x.1).2 else x.2)

/-- The converted lines and their counts, with the rules over values in some order. -/
def bodyInOrder (zone : Zone) (order : List ValueRule) (lines : List (List Char)) : List Char × EpochCounts :=
  order.foldl (ValueRule.step zone) (quoteInsertTarget (joinLines lines), ⟨0, 0⟩)

/-- The rules in the order of the conversion. -/
def valueRules : List ValueRule := [.epochs, .truthValues, .leadingNull, .doubledQuotes]

theorem bodyInOrder_valueRules (zone : Zone) (lines : List (List Char)) :
    bodyInOrder zone valueRules lines = body zone lines := by
  simp [bodyInOrder, valueRules, ValueRule.step, ValueRule.apply, body]

theorem truthValues_comm {rule : List Char → List Char}
    (h : ∀ p ∈ truthSlots, ∀ s, p.rewrite (rule s) = rule (p.rewrite s)) (s : List Char) :
    booleanValues (rule s) = rule (booleanValues s) := by
  simp only [booleanValues_eq, Slot.rewriteAll_comm h]

/-- Any two of the rules may change places. -/
theorem ValueRule.apply_comm (zone : Zone) (r r' : ValueRule) (s : List Char) :
    r.apply zone (r'.apply zone s) = r'.apply zone (r.apply zone s) := by
  have hmem : ∀ p ∈ truthSlots, p ∈ nullSlot :: truthSlots := fun p hp => List.mem_cons_of_mem _ hp
  have hnull : nullSlot ∈ nullSlot :: truthSlots := List.mem_cons_self
  have truth_null : ∀ s, booleanValues (nullSlot.rewrite s) = nullSlot.rewrite (booleanValues s) :=
    truthValues_comm fun p hp => (nullSlot_distinct p hp).rewrite_comm
  have truth_epochs : ∀ s, booleanValues (zone.convertEpochs s).1 = (zone.convertEpochs (booleanValues s)).1 :=
    @truthValues_comm (fun s => (zone.convertEpochs s).1) fun p hp =>
      rewrite_convertEpochs zone (timeless_slots p (hmem p hp))
  have truth_quotes : ∀ s, booleanValues (collapseDoubledQuotes s) = collapseDoubledQuotes (booleanValues s) :=
    truthValues_comm fun p hp s => ((quoteWise_slots p (hmem p hp)).collapse_comm s).symm
  have null_epochs := rewrite_convertEpochs zone (timeless_slots nullSlot hnull)
  have null_quotes := (quoteWise_slots nullSlot hnull).collapse_comm
  have epochs_quotes := (quoteWise_convertEpochs zone).collapse_comm
  cases r <;> cases r' <;>
    simp [ValueRule.apply, defaultLeadingNull_eq, truth_null, truth_epochs, truth_quotes, null_epochs,
      null_quotes, epochs_quotes]

theorem epochCount_apply (zone : Zone) {r : ValueRule} (hr : r ≠ .epochs) (s : List Char) :
    epochCount (r.apply zone s) = epochCount s := by
  cases r with
  | epochs => exact absurd rfl hr
  | truthValues =>
    simp only [ValueRule.apply, booleanValues_eq]
    apply Slot.rewriteAll_keeps (g := epochCount)
    intro p hp
    exact epochCount_rewrite (timeless_slots p (List.mem_cons_of_mem _ hp))
  | leadingNull =>
    rw [ValueRule.apply, defaultLeadingNull_eq]
    exact epochCount_rewrite (timeless_slots nullSlot List.mem_cons_self) s
  | doubledQuotes => exact congrArg (List.countP isEpochWord) (words_collapseDoubledQuotes s)

/-- The rules may change places with their counts, too. -/
theorem ValueRule.step_comm (zone : Zone) (x : List Char × EpochCounts) (r r' : ValueRule) :
    ValueRule.step zone (ValueRule.step zone x r) r' = ValueRule.step zone (ValueRule.step zone x r') r := by
  have hcounts : ∀ s, (zone.convertEpochs s).2 = ⟨epochCount s, 0⟩ := fun s => by
    rw [convertEpochs_eq]
    rfl
  by_cases hr : r = .epochs
  · by_cases hr' : r' = .epochs
    · rw [hr, hr']
    · simp [ValueRule.step, hr, hr', hcounts, epochCount_apply zone hr', ValueRule.apply_comm zone r']
  · by_cases hr' : r' = .epochs
    · simp [ValueRule.step, hr, hr', hcounts, epochCount_apply zone hr, ValueRule.apply_comm zone r]
    · simp [ValueRule.step, hr, hr', ValueRule.apply_comm zone r]

/-- Any two of the rules over values may change places, and in each order they lead to the same body with
the same counts. -/
theorem body_of_perm (zone : Zone) :
    (∀ (r r' : ValueRule) (s : List Char), r.apply zone (r'.apply zone s) = r'.apply zone (r.apply zone s)) ∧
      ∀ (order : List ValueRule), order.Perm valueRules → ∀ lines,
        bodyInOrder zone order lines = body zone lines := by
  refine ⟨ValueRule.apply_comm zone, fun order horder lines => ?_⟩
  rw [← bodyInOrder_valueRules]
  apply horder.foldl_eq'
  intro r _ r' _ x
  exact ValueRule.step_comm zone x r r'

/-- The last rule first and the first one last. -/
theorem body_of_perm_reverse : valueRules.reverse.Perm valueRules ∧
    bodyInOrder .utc valueRules.reverse ["INSERT INTO t VALUES(NULL,1609459200,0);".toList] =
      ("INSERT INTO \"t\" VALUES(DEFAULT,\x272021-01-01 00:00:00\x27,FALSE);".toList, ⟨1, 0⟩) := by
  have horder : valueRules.reverse.Perm valueRules := List.reverse_perm valueRules
  refine ⟨horder, ?_⟩
  rw [(body_of_perm .utc).2 _ horder]
  decide +kernel

end SqlDump.DataOnly
