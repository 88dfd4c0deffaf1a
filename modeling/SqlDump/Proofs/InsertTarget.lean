import SqlDump.Proofs.DataOnly.Lines
import SqlDump.Proofs.Schema.Reference
/-!
# Table names in backticks

Both conversions put the table name of an `INSERT INTO` in double quotes. The one for whole dumps has
changed backticks to double quotes before that. The one for the data alone has not, and there the
backticks come to stand inside the quotes (`convert_backticked_target`).
-/

namespace SqlDump

open Rule Text Time

/-- A name of letters and underscores. -/
def IsTableName (name : List Char) : Prop := name ≠ [] ∧ ∀ c ∈ name, c.isAlpha = true ∨ c = '_'

theorem IsTableName.isName {name : List Char} (h : IsTableName name) : Schema.IsName name := by
  refine ⟨h.1, fun c hc => (h.2 c hc).imp_left fun halpha => ?_⟩
  simp [Char.isAlphanum, halpha]

/-- The insertion of what `values` holds into the table of a name, which is written as it stands. -/
def insertion (name values : List Char) : List Char := "INSERT INTO ".toList ++ (name ++ ' ' :: values)

theorem insertion_eq (name values : List Char) : insertion name values =
    "INSERT".toList ++ ' ' :: ("INTO".toList ++ ' ' :: (name ++ ' ' :: values)) := by
  have hk : "INSERT INTO ".toList = "INSERT".toList ++ ' ' :: ("INTO".toList ++ [' ']) := rfl
  unfold insertion
  rw [hk]
  simp

theorem insertion_injective {name name' values : List Char} (h : insertion name values = insertion name' values) :
    name = name' := by
  unfold insertion at h
  exact List.append_cancel_right (List.append_cancel_left h)

/-! ## The table name of an insertion -/

theorem inBareName_of_isWord {c : Char} (h : isWord c = true) : inBareName c = true := by
  by_contra hb
  rw [isWord_of_not_inBareName (by simpa using hb)] at h
  cases h

/-- A bare table name reaches up to the blank and is put in quotes. -/
theorem quoteInsertTarget_bare {name : List Char} (hne : name ≠ []) (hname : ∀ c ∈ name, inBareName c = true)
    (values : List Char) : quoteInsertTarget (insertion name values) =
      insertion (quoted name) (quoteInsertTarget values) := by
  have hhit : insertTarget none (("INSERT INTO ".toList ++ name) ++ ' ' :: values) =
      some ⟨("INSERT INTO ".toList ++ name).length, "INSERT INTO ".toList ++ quoted name⟩ :=
    insertTarget_hits ⟨name, hne, hname, rfl, rfl, rfl⟩
  unfold insertion quoteInsertTarget
  rw [← List.append_assoc, insertTarget_opens.replaceAll_hit (by simp) hhit,
    insertTarget_opens.replaceAll_cons (by decide), List.append_assoc]

/-- A quoted table name stays. -/
theorem quoteInsertTarget_quoted {name : List Char} (hname : ' ' ∉ name) (values : List Char) :
    quoteInsertTarget (insertion (quoted name) values) =
      insertion (quoted name) (quoteInsertTarget values) := by
  have hquote : '"' ∉ "INSERT INTO ".toList := by decide
  have hkeyword : quoteInsertTarget "INSERT INTO ".toList = "INSERT INTO ".toList := by decide
  have hblank : ¬ "INSERT INTO ".toList <:+: quoted name := by
    intro h
    have : ' ' ∈ quoted name := h.subset (by decide)
    simp [quoted, hname] at this
  have hapart : Apart "INSERT INTO ".toList (quoted name) (' ' :: values) :=
    .of_left (by decide) (by decide) ('"' :: name) _
  have hborder : Apart "INSERT INTO ".toList "INSERT INTO ".toList (quoted name ++ ' ' :: values) :=
    .of_not_mem hquote _ _
  unfold insertion
  rw [quoteInsertTarget_append hborder rfl, hkeyword]
  unfold quoteInsertTarget
  rw [insertTarget_opens.replaceAll_append hblank hapart, insertTarget_opens.replaceAll_cons (by decide)]

/-! ## Rules that pass over the front of an insertion -/

/-- A rule whose hits open with a text that the front holds no part of goes on to the values. -/
theorem replaceAll_insertion {p : Pattern (List Char)} {k name : List Char} (hp : p.Opens k)
    (hno : ¬ k <:+: "INSERT INTO ".toList ++ name) (values : List Char)
    (hblank : Apart k ("INSERT INTO ".toList ++ name) (' ' :: values)) (hhead : k.head? ≠ some ' ') :
    replaceAll p (insertion name values) = insertion name (replaceAll p values) := by
  unfold insertion
  rw [← List.append_assoc, hp.replaceAll_append hno hblank, hp.replaceAll_cons hhead, List.append_assoc]

theorem not_infix_front {k name : List Char} {c : Char} (hc : c ∈ k) (hkeyword : c ∉ "INSERT INTO ".toList)
    (hname : c ∉ name) : ¬ k <:+: "INSERT INTO ".toList ++ name := by
  intro h
  rcases List.mem_append.1 (h.subset hc) with h | h
  · exact hkeyword h
  · exact hname h

theorem defaultLeadingNull_insertion {name : List Char} (hname : ',' ∉ name) (values : List Char) :
    defaultLeadingNull (insertion name values) = insertion name (defaultLeadingNull values) := by
  have hblank : ' ' ∉ "VALUES(NULL,".toList := by decide
  have hcomma : ',' ∈ "VALUES(NULL,".toList ∧ ',' ∉ "INSERT INTO ".toList := by decide
  exact replaceAll_insertion (literal_opens _ (by decide)) (not_infix_front hcomma.1 hcomma.2 hname) values
    (.of_not_mem hblank _ _) (by decide)

/-! ## The whole dump -/

section Schema

open Schema

variable {name values : List Char}

/-- The text starts with the keyword in front of the values of a row and its parenthesis. -/
def StartsRow (values : List Char) : Prop := "VALUES(".toList <+: values

theorem startsRow_iff : StartsRow values ↔ ∃ z, values = "VALUES".toList ++ '(' :: z := by
  have hv : ∀ z, "VALUES(".toList ++ z = "VALUES".toList ++ '(' :: z := fun z => rfl
  constructor
  · rintro ⟨z, rfl⟩
    exact ⟨z, hv z⟩
  · rintro ⟨z, rfl⟩
    exact ⟨z, (hv z).symm⟩

theorem StartsRow.of_opens {p : Pattern (List Char)} {k : List Char} (hp : p.Opens k)
    (hno : ¬ k <:+: "VALUES(".toList) (hapart : ∀ z, Apart k "VALUES(".toList z) (h : StartsRow values) :
    StartsRow (replaceAll p values) := by
  obtain ⟨z, rfl⟩ := h
  rw [hp.replaceAll_append hno (hapart z)]
  exact List.prefix_append _ _

theorem StartsRow.rewritten {rule : List Char → List Char} (hr : RewritesWords rule)
    (hk : rule "VALUES".toList = "VALUES".toList) (h : StartsRow values) : StartsRow (rule values) := by
  obtain ⟨z, rfl⟩ := startsRow_iff.1 h
  rw [hr.append_cons _ _ (by decide), hk]
  exact startsRow_iff.2 ⟨_, rfl⟩

theorem serialKeys_row (z : List Char) :
    serialKeys ("VALUES".toList ++ '(' :: z) = "VALUES".toList ++ '(' :: serialKeys z := by
  have hparen : '(' ∉ keyPhrase := by decide
  have hblanks : "VALUES".toList.count ' ' < 3 := by decide
  rw [serialKeys_append (.of_not_mem hparen _ _) rfl, serialKeys_eq_self hblanks, serialKeys_cons (by decide)]

theorem rewritten_insertion {rule : List Char → List Char} (h : RewritesWords rule)
    (hk : rule "INSERT".toList = "INSERT".toList ∧ rule "INTO".toList = "INTO".toList) (name values : List Char) :
    rule (insertion name values) = insertion (rule name) (rule values) := by
  have hblank : isWord ' ' = false := by decide
  rw [insertion_eq, insertion_eq, h.append_cons _ _ hblank, h.append_cons _ _ hblank,
    h.append_cons _ _ hblank, hk.1, hk.2]

/-- The phrase of a counting key has three blanks. Two cuts leave fewer in each part of the front. -/
theorem serialKeys_insertion (hname : ' ' ∉ name) (hrow : StartsRow values) :
    serialKeys (insertion name values) = insertion name (serialKeys values) := by
  obtain ⟨z, rfl⟩ := startsRow_iff.1 hrow
  have hsplit : ∀ x, insertion name ("VALUES".toList ++ '(' :: x) =
      "INSERT INTO".toList ++ (' ' :: (name ++ " VALUES".toList) ++ '(' :: x) := by
    have hk : "INSERT INTO ".toList = "INSERT INTO".toList ++ [' '] := rfl
    have hw : " VALUES".toList = ' ' :: "VALUES".toList := rfl
    intro x
    unfold insertion
    rw [hk, hw]
    simp
  have hkeyword : Apart keyPhrase ("INSERT INTO".toList.map foldCase)
      ((' ' :: (name ++ " VALUES".toList) ++ '(' :: z).map foldCase) :=
    .of_left (by decide) (by decide) [] _
  have hparen : '(' ∉ keyPhrase := by decide
  have hvalues : Apart keyPhrase ((' ' :: (name ++ " VALUES".toList)).map foldCase) (('(' :: z).map foldCase) :=
    .of_not_mem hparen _ _
  have hone : "INSERT INTO".toList.count ' ' < 3 := by decide
  have htwo : (' ' :: (name ++ " VALUES".toList)).count ' ' < 3 := by
    rw [List.count_cons_self, List.count_append, List.count_eq_zero.2 hname]
    decide
  rw [serialKeys_row, hsplit, hsplit, serialKeys_append hkeyword rfl, serialKeys_append hvalues rfl,
    serialKeys_eq_self hone, serialKeys_eq_self htwo, serialKeys_cons (by decide)]

theorem plainDefaultTime_insertion (hname : ')' ∉ name) (hrow : StartsRow values) :
    plainDefaultTime (insertion name values) = insertion name (plainDefaultTime values) := by
  obtain ⟨z, rfl⟩ := hrow
  have hparen : ')' ∈ "DEFAULT (CURRENT_TIMESTAMP)".toList ∧ ')' ∉ "INSERT INTO ".toList := by decide
  have hfront : Apart "DEFAULT (CURRENT_TIMESTAMP)".toList ("INSERT INTO ".toList ++ name)
      (' ' :: ("VALUES(".toList ++ z)) :=
    .of_right (w := " VALUES(".toList) (by decide) _ z
  exact replaceAll_insertion (literal_opens _ (by decide)) (not_infix_front hparen.1 hparen.2 hname) _ hfront
    (by decide)

theorem stripPragmas_insertion (hname : ¬ "PRAGMA".toList <:+: name) (values : List Char) :
    stripPragmas (insertion name values) = insertion name (stripPragmas values) := by
  have hblank : ' ' ∉ "PRAGMA".toList := by decide
  have hapart : Apart "PRAGMA".toList "INSERT INTO ".toList name := .of_left (by decide) (by decide) [] _
  have hno : ¬ "PRAGMA".toList <:+: "INSERT INTO ".toList ++ name := by
    intro h
    rcases hapart.infix_append h with h | h
    · exact absurd h (by decide)
    · exact hname h
  exact replaceAll_insertion pragma_opens hno _ (.of_not_mem hblank _ _) (by decide)

theorem not_infix_inBackticks (hname : ¬ "PRAGMA".toList <:+: name) : ¬ "PRAGMA".toList <:+: inBackticks name := by
  have htick : '\x60' ∉ "PRAGMA".toList := by decide
  have hopen : Apart "PRAGMA".toList ['\x60'] (name ++ ['\x60']) := .of_left (by decide) (by decide) [] _
  have hclose : Apart "PRAGMA".toList name ['\x60'] := .of_not_mem htick _ _
  intro h
  rcases hopen.infix_append h with h | h
  · exact absurd h (by decide)
  · rcases hclose.infix_append h with h | h
    · exact hname h
    · exact absurd h (by decide)

theorem quoteBackticked_bare (hname : '\x60' ∉ name) (values : List Char) :
    quoteBackticked (insertion name values) = insertion name (quoteBackticked values) := by
  have htick : '\x60' ∉ "INSERT INTO ".toList := by decide
  exact replaceAll_insertion backticked_opens (not_infix_front (by simp) htick hname) _ (.singleton _ _ _) (by decide)

theorem quoteBackticked_inBackticks (hname : name ≠ [] ∧ '\x60' ∉ name) (values : List Char) :
    quoteBackticked (insertion (inBackticks name) values) = insertion (quoted name) (quoteBackticked values) := by
  have htick : '\x60' ∉ "INSERT INTO ".toList ∧ '\x60' ∉ [' '] := by decide
  unfold insertion
  rw [← List.singleton_append, quoteBackticked_append htick.1, quoteBackticked_name hname.1 hname.2,
    quoteBackticked_append htick.2]
  rfl

/-- Up to the rule for references, a quoted table name fares like a bare one. -/
theorem beforeReferences_insertion {spell : List Char → List Char} (hs : Spelling spell)
    (hname : name ≠ [] ∧ ∀ c ∈ name, isWord c = true) (hrow : StartsRow values) :
    beforeReferences (insertion (spell name) values) = insertion (quoted (cased name)) (beforeReferences values) := by
  have htypes := rewritesWords_upcaseTypes.word_ne_nil hname
  obtain ⟨hne, hword⟩ := rewritesWords_cased.word_ne_nil hname
  have hnot : ∀ {c}, isWord c = false → c ∉ cased name := fun hc h => Bool.eq_false_iff.1 hc (hword _ h)
  have hrow1 : StartsRow (upcaseTypes values) := hrow.rewritten rewritesWords_upcaseTypes (by decide)
  have hrow2 : StartsRow (serialKeys (upcaseTypes values)) := by
    obtain ⟨z, hz⟩ := startsRow_iff.1 hrow1
    rw [hz, serialKeys_row]
    exact startsRow_iff.2 ⟨_, rfl⟩
  have htarget : ∀ values, quoteInsertTarget (insertion (spell (cased name)) values) =
      insertion (quoted (cased name)) (quoteInsertTarget values) := by
    rcases hs with rfl | rfl
    · simp only [id]
      exact quoteInsertTarget_bare hne fun c hc => inBareName_of_isWord (hword c hc)
    · exact quoteInsertTarget_quoted (hnot (by decide))
  have hcomma : ',' ∉ quoted (cased name) := (not_mem_spelled (.inr rfl) ⟨hne, hword⟩ (by decide) (by decide)).2
  unfold beforeReferences
  rw [rewritten_insertion rewritesWords_upcaseTypes (by decide), spell_rewritten rewritesWords_upcaseTypes hs,
    serialKeys_insertion (not_mem_spelled hs htypes (by decide) (by decide)).2 hrow1,
    plainDefaultTime_insertion (not_mem_spelled hs htypes (by decide) (by decide)).2 hrow2,
    rewritten_insertion rewritesWords_upcaseBooleans (by decide), spell_rewritten rewritesWords_upcaseBooleans hs]
  exact (congrArg defaultLeadingNull (htarget _)).trans (defaultLeadingNull_insertion hcomma _)

/-- The last two rules pass over the front of an insertion into a quoted table. -/
theorem finish_insertion (hname : ' ' ∉ name ∧ '\n' ∉ name) (values : List Char) :
    collapseBlankLines (quoteReferences (insertion (quoted name) values)) =
      insertion (quoted name) (collapseBlankLines (quoteReferences values)) := by
  have hfront : "INSERT INTO ".toList ++ quoted name = ("INSERT INTO ".toList ++ '"' :: name) ++ ['"'] := by
    simp [quoted]
  have hblank : ' ' ∉ quoted name := by simp [quoted, hname.1]
  have hline : '\n' ∉ quoted name := by simp [quoted, hname.2]
  have hno : ¬ "REFERENCES ".toList <:+: "INSERT INTO ".toList ++ quoted name := by
    have hk : "REFERENCES ".toList = "REFERENCES".toList ++ [' '] := rfl
    rw [hk]
    exact fun h => absurd (infix_of_last_not_mem hblank h) (by decide)
  have hapart : Apart "REFERENCES ".toList ("INSERT INTO ".toList ++ quoted name) (' ' :: values) := by
    rw [hfront]
    exact .of_left (by decide) (by decide) _ _
  have hlf : '\n' ∉ "INSERT INTO ".toList := by decide
  unfold quoteReferences collapseBlankLines
  rw [replaceAll_insertion reference_opens hno _ hapart (by decide),
    replaceAll_insertion blankLines_opens (not_infix_front (by simp) hlf hline) _ (.singleton _ _ _) (by decide)]

/-- In a whole dump it makes no difference whether the table name stands in backticks. -/
theorem body_insertion (hname : IsTableName name) (hpragma : ¬ "PRAGMA".toList <:+: name)
    (hrow : StartsRow values) :
    body (insertion name values) = insertion (quoted (cased name)) (body values) ∧
      body (insertion (inBackticks name) values) = insertion (quoted (cased name)) (body values) := by
  have hword : name ≠ [] ∧ ∀ c ∈ name, isWord c = true := ⟨hname.1, hname.isName.isWord⟩
  have hcased := (rewritesWords_cased.word_ne_nil hword).2
  have hnot : ∀ {c}, isWord c = false → c ∉ cased name := fun hc h => Bool.eq_false_iff.1 hc (hcased _ h)
  have htick : '\x60' ∉ name := fun h => absurd (hword.2 _ h) (by decide)
  have hrow1 : StartsRow (stripPragmas values) :=
    hrow.of_opens pragma_opens (by decide) fun z => .of_left (by decide) (by decide) [] z
  have hrow2 : StartsRow (quoteBackticked (stripPragmas values)) :=
    hrow1.of_opens backticked_opens (by decide) fun z => .singleton _ _ z
  have hfinish := finish_insertion ⟨hnot (c := ' ') (by decide), hnot (c := '\n') (by decide)⟩
  have hbare := beforeReferences_insertion (.inl rfl) hword hrow2
  simp only [id] at hbare
  rw [body_eq_finish, body_eq_finish, body_eq_finish, stripPragmas_insertion hpragma,
    stripPragmas_insertion (not_infix_inBackticks hpragma), quoteBackticked_bare htick,
    quoteBackticked_inBackticks ⟨hname.1, htick⟩, hbare, beforeReferences_insertion (.inr rfl) hword hrow2, hfinish]
  exact ⟨rfl, rfl⟩

end Schema

/-! ## The data alone -/

section DataOnly

open DataOnly

variable {name values : List Char}

theorem convertEpochs_insertion (zone : Zone) (hname : '1' ∉ name) (values : List Char) :
    (zone.convertEpochs (insertion name values)).1 = insertion name (zone.convertEpochs values).1 := by
  have hfront : mapWords zone.epochText ("INSERT INTO ".toList ++ name) = "INSERT INTO ".toList ++ name := by
    have h := edits_convertEpochs zone ("INSERT INTO ".toList ++ name)
    rw [convertEpochs_eq] at h
    refine h.eq_self ?_
    rintro b old new v hv ⟨hold, -⟩
    have hone : '1' ∈ "INSERT INTO ".toList ++ name :=
      hv.subset (List.mem_append_left v (List.mem_of_head? (isEpochWord_iff.1 hold).1))
    rcases List.mem_append.1 hone with h | h
    · exact absurd h (by decide)
    · exact hname h
  have hsplit : ∀ x, insertion name x = ("INSERT INTO ".toList ++ name) ++ ' ' :: x := fun x =>
    (List.append_assoc _ _ _).symm
  rw [convertEpochs_eq, convertEpochs_eq, hsplit, hsplit, mapWords_append_of_not_isWord _ _ _ (by decide), hfront]

theorem booleanValues_insertion (hname : ',' ∉ name ∧ '(' ∉ name) (values : List Char) :
    booleanValues (insertion name values) = insertion name (booleanValues values) := by
  have hplaces : ∀ place ∈ booleanPlaces, place.1.toList ≠ [] ∧ ' ' ∉ place.1.toList ∧
      (',' ∈ place.1.toList ∨ '(' ∈ place.1.toList) := by decide
  unfold booleanValues
  generalize booleanPlaces = places at hplaces
  induction places generalizing values with
  | nil => rfl
  | cons place places ih =>
    rw [List.forall_mem_cons] at hplaces
    obtain ⟨⟨hne, hblank, hmem⟩, hplaces⟩ := hplaces
    have hno : ¬ place.1.toList <:+: "INSERT INTO ".toList ++ name := by
      rcases hmem with h | h
      · exact not_infix_front h (by decide) hname.1
      · exact not_infix_front h (by decide) hname.2
    have hhead : place.1.toList.head? ≠ some ' ' := fun h => hblank (List.mem_of_head? h)
    rw [List.foldl_cons, List.foldl_cons, replaceAll_insertion (literal_opens _ hne) hno _
      (.of_not_mem hblank _ _) hhead]
    exact ih _ hplaces

theorem collapseDoubledQuotes_insertion (hname : name ≠ [] ∧ '"' ∉ name) (values : List Char) :
    collapseDoubledQuotes (insertion (quoted name) values) =
      insertion (quoted name) (collapseDoubledQuotes values) := by
  have hblank : ' ' ∉ ['"', '"'] := by decide
  have hno : ¬ ['"', '"'] <:+: "INSERT INTO ".toList ++ quoted name := by
    obtain ⟨c, x, rfl⟩ := List.exists_cons_of_ne_nil hname.1
    have hkeyword : '"' ∉ "INSERT INTO ".toList := by decide
    have hc : c ∉ ['"', '"'] := by
      intro h
      simp only [List.mem_cons, List.not_mem_nil, or_false, or_self] at h
      exact hname.2 (by simp [h])
    intro h
    rcases (Apart.of_head_not_mem hkeyword _ _).infix_append h with h | h
    · exact absurd h (by decide)
    · -- the quotes stand apart, with the name between them
      have h : ['"', '"'] <:+: ['"'] ++ (c :: x ++ ['"']) := h
      rcases (Apart.of_not_mem hc _ _).infix_append h with h | h
      · exact absurd h (by decide)
      · rcases (Apart.of_head_not_mem hname.2 _ _).infix_append h with h | h
        · exact hname.2 (h.subset (by simp))
        · exact absurd h (by decide)
  exact replaceAll_insertion doublyQuoted_opens hno _ (.of_not_mem hblank _ _) (by decide)

/-- A table name as the conversion of the data alone takes it, with nothing in it that the rules look for. -/
structure Target (name : List Char) : Prop where
  ne_nil : name ≠ []
  bare : ∀ c ∈ name, inBareName c = true
  no_value : '1' ∉ name ∧ ',' ∉ name

theorem Target.not_mem (h : Target name) {c : Char} (hc : inBareName c = false) : c ∉ name := by
  intro hname
  rw [h.bare c hname] at hc
  cases hc

theorem IsTableName.target (h : IsTableName name) : Target name := by
  have hno : ∀ {c : Char}, c.isAlpha = false → c ≠ '_' → c ∉ name := by
    intro c hc hunderscore hname
    rcases h.2 c hname with h | h
    · rw [h] at hc
      cases hc
    · exact hunderscore h
  exact ⟨h.1, fun c hc => inBareName_of_isWord (h.isName.isWord c hc), hno rfl (by decide), hno rfl (by decide)⟩

/-- Backticks are taken for a part of the name. -/
theorem Target.inBackticks (h : Target name) : Target (inBackticks name) := by
  unfold Rule.inBackticks
  refine ⟨by simp, ?_, ?_⟩
  · intro c hc
    simp only [List.mem_cons, List.mem_append, List.not_mem_nil, or_false] at hc
    rcases hc with rfl | hc | rfl
    · decide
    · exact h.bare c hc
    · decide
  · simp [h.no_value]

theorem rewriteValues_insertion (zone : Zone) (h : Target name) (values : List Char) :
    rewriteValues zone (insertion name values) = insertion (quoted name) (rewriteValues zone values) := by
  have hone : '1' ∉ quoted name := by simp [quoted, h.no_value]
  have hcomma : ',' ∉ quoted name := by simp [quoted, h.no_value]
  have hparen : '(' ∉ quoted name := by simp [quoted, h.not_mem (c := '(') (by decide)]
  unfold rewriteValues
  rw [quoteInsertTarget_bare h.ne_nil h.bare, convertEpochs_insertion zone hone,
    booleanValues_insertion ⟨hcomma, hparen⟩, defaultLeadingNull_insertion hcomma]

theorem mem_insertLines_insertion (h : Target name) (hline : '\n' ∉ values) :
    insertion name values ∈ insertLines (insertion name values) := by
  have hk : "INSERT INTO ".toList = insertKeyword ++ [' '] := rfl
  have hlf : '\n' ∉ insertion name values := by
    have hkeyword : '\n' ∉ "INSERT INTO ".toList := by decide
    unfold insertion
    simp only [List.mem_append, List.mem_cons, not_or]
    exact ⟨hkeyword, h.not_mem (by decide), by decide, hline⟩
  have hkeyword : insertion name values = insertKeyword ++ ' ' :: (name ++ ' ' :: values) := by
    unfold insertion
    rw [hk, List.append_assoc, List.singleton_append]
  have hkept : Kept (insertion name values) := kept_iff.2 ⟨[], _, hkeyword, by simp⟩
  rw [insertLines_line hlf hkept]
  exact List.mem_singleton_self _

/-- The data alone: whatever the table name holds is put in quotes. -/
theorem convertsTo_insertion_iff (zone : Zone) (generatedAt : Stamp) (h : Target name) (hline : '\n' ∉ values)
    {text : List Char} : ConvertsTo zone generatedAt (insertion name values) text ↔
      text = insertion (quoted name) (collapseDoubledQuotes (rewriteValues zone values)) := by
  have hquote : '"' ∉ name := h.not_mem (by decide)
  rw [convertsTo_line_iff zone generatedAt (mem_insertLines_insertion h hline), rewriteValues_insertion zone h,
    collapseDoubledQuotes_insertion ⟨h.ne_nil, hquote⟩]

end DataOnly

/-! ## Table names in backticks and bare ones -/

/-- A whole dump loses the backticks of a table name. The data alone keeps them, inside the quotes. -/
theorem convert_backticked_target {name values : List Char} (hname : IsTableName name)
    (hpragma : ¬ "PRAGMA".toList <:+: name) (hrow : StartsRow values) (hline : '\n' ∉ values)
    (zone : Zone) (generatedAt : Stamp) :
    (∃ rest, Schema.convert (insertion name values) =
        Schema.preamble ++ insertion (quoted (Schema.cased name)) rest ∧
      Schema.convert (insertion (inBackticks name) values) = Schema.convert (insertion name values)) ∧
    ∃ rest, DataOnly.ConvertsTo zone generatedAt (insertion name values) (insertion (quoted name) rest) ∧
      DataOnly.ConvertsTo zone generatedAt (insertion (inBackticks name) values)
        (insertion (quoted (inBackticks name)) rest) ∧
      ∀ text, DataOnly.ConvertsTo zone generatedAt (insertion name values) text →
        ¬ DataOnly.ConvertsTo zone generatedAt (insertion (inBackticks name) values) text := by
  have htarget := hname.target
  constructor
  · obtain ⟨hbare, hticks⟩ := body_insertion hname hpragma hrow
    refine ⟨Schema.body values, ?_, ?_⟩
    · unfold Schema.convert
      rw [hbare]
    · unfold Schema.convert
      rw [hbare, hticks]
  · refine ⟨collapseDoubledQuotes (DataOnly.rewriteValues zone values), ?_, ?_, ?_⟩
    · rw [convertsTo_insertion_iff zone generatedAt htarget hline]
    · rw [convertsTo_insertion_iff zone generatedAt htarget.inBackticks hline]
    intro text hbare hticks
    rw [convertsTo_insertion_iff zone generatedAt htarget hline] at hbare
    rw [convertsTo_insertion_iff zone generatedAt htarget.inBackticks hline, hbare] at hticks
    have hnames := insertion_injective hticks
    have hlen := congrArg List.length hnames
    simp only [quoted, inBackticks, List.length_append, List.length_cons, List.length_nil] at hlen
    omega

theorem convert_backticked_target_users : ∃ rest,
    Schema.convert (insertion "users".toList "VALUES(5);".toList) =
      Schema.preamble ++ insertion (quoted (Schema.cased "users".toList)) rest ∧
    Schema.convert (insertion (inBackticks "users".toList) "VALUES(5);".toList) =
      Schema.convert (insertion "users".toList "VALUES(5);".toList) := by
  have hname : IsTableName "users".toList := ⟨by decide, by simp⟩
  have hrow : StartsRow "VALUES(5);".toList := ⟨"5);".toList, rfl⟩
  exact (convert_backticked_target hname (by decide) hrow (by decide) .utc ⟨⟨2024, 1, 1⟩, 0, 0, 0⟩).1

/-- A pair of backticks is left inside the quotes. -/
theorem convert_backticked_target_ne :
    DataOnly.convert .utc ⟨⟨2024, 1, 1⟩, 0, 0, 0⟩ (insertion (inBackticks "users".toList) "VALUES(5);".toList) ≠
      DataOnly.convert .utc ⟨⟨2024, 1, 1⟩, 0, 0, 0⟩ (insertion "users".toList "VALUES(5);".toList) := by
  decide +kernel

end SqlDump
