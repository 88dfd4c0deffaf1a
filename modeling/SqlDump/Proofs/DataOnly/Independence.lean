import SqlDump.Proofs.DataOnly.Lines
import SqlDump.Proofs.Rule.Border
/-!
# When lines are converted independently

A name in doubled quotes may hold a line feed, so that quotes at the end of one line and at the
start of another can be taken together. `collapseDoubledQuotes_eq_iff` says that this is the only
way in which lines disturb each other: a conversion is that of its lines, one by one, exactly if
no name that is found reaches over a line end.
-/

namespace SqlDump.DataOnly

open Rule Text Time

/-! ## One step of collapsing -/

/-- The names that are found between doubled quotes, in their new quotes. -/
def quotedNames (s : List Char) : List (List Char) := (pieces doublyQuoted s).filterMap Piece.value?

theorem scan_doublyQuoted (before : Option Char) (s : List Char) :
    scan doublyQuoted before 0 [] s = pieces doublyQuoted s := by
  cases s with
  | nil => rfl
  | cons c s => rfl

theorem pieces_of_declines {c : Char} {s : List Char} (h : doublyQuoted none (c :: s) = none) :
    pieces doublyQuoted (c :: s) = .kept c :: pieces doublyQuoted s := by
  rw [← scan_doublyQuoted none, scan_cons_of_none h, scan_doublyQuoted]

theorem pieces_of_name {name : List Char} (hne : name ≠ []) (hquote : '"' ∉ name) (s : List Char) :
    pieces doublyQuoted ('"' :: '"' :: (name ++ '"' :: '"' :: s)) =
      .hit (quoted name) :: pieces doublyQuoted s := by
  have h := doublyQuoted_name hne hquote none s
  have hs : '"' :: (name ++ '"' :: '"' :: s) = ('"' :: (name ++ ['"', '"'])) ++ s := by simp
  rw [hs] at h ⊢
  rw [← scan_doublyQuoted none, scan_cons_of_some (by simpa using h), scan_doublyQuoted]

theorem quotedNames_of_declines {c : Char} {s : List Char} (h : doublyQuoted none (c :: s) = none) :
    quotedNames (c :: s) = quotedNames s := by
  rw [quotedNames, pieces_of_declines h]
  rfl

theorem quotedNames_of_name {name : List Char} (hne : name ≠ []) (hquote : '"' ∉ name) (s : List Char) :
    quotedNames ('"' :: '"' :: (name ++ '"' :: '"' :: s)) = quoted name :: quotedNames s := by
  rw [quotedNames, pieces_of_name hne hquote]
  rfl

theorem declines_of_longer {s t : List Char} (hst : s <+: t) (h : doublyQuoted none t = none) :
    doublyQuoted none s = none := by
  cases hs : doublyQuoted none s with
  | none => rfl
  | some hit =>
    obtain ⟨old, rest, rfl, -, -, name, hne, hquote, rfl, -⟩ := doublyQuoted_finds _ _ _ hs
    obtain ⟨more, rfl⟩ := hst
    have hfound := doublyQuoted_name hne hquote none (rest ++ more)
    have happ : ['"', '"'] ++ (name ++ ['"', '"']) ++ rest ++ more =
        '"' :: '"' :: (name ++ '"' :: '"' :: (rest ++ more)) := by simp
    rw [happ, hfound] at h
    cases h

/-! ## Line by line -/

/-- Each line collapsed on its own. -/
def collapseLines (s : List Char) : List Char := joinLines ((splitLines s).map collapseDoubledQuotes)

/-- What a front without line feeds becomes, it becomes in its line. -/
theorem collapseLines_append {front out s : List Char} (hlf : '\n' ∉ front)
    (h : ∀ line, line <+: s → '\n' ∉ line →
      collapseDoubledQuotes (front ++ line) = out ++ collapseDoubledQuotes line) :
    collapseLines (front ++ s) = out ++ collapseLines s := by
  obtain ⟨line, more, hs⟩ := List.exists_cons_of_ne_nil (splitLines_ne_nil s)
  have hline : '\n' ∉ line := not_mem_of_mem_splitLines (hs ▸ List.mem_cons_self)
  unfold collapseLines
  rw [splitLines_append hlf hs, hs, List.map_cons, List.map_cons, h line (prefix_of_splitLines hs) hline,
    joinLines_append]

theorem collapseLines_lf (s : List Char) : collapseLines ('\n' :: s) = '\n' :: collapseLines s := by
  have hlf : '\n' ∉ ([] : List Char) := by simp
  have hne : (splitLines s).map collapseDoubledQuotes ≠ [] := by simpa using splitLines_ne_nil s
  unfold collapseLines
  rw [← List.nil_append ('\n' :: s), splitLines_append_cons hlf, List.map_cons, joinLines_cons _ hne]
  rfl

theorem collapseLines_of_declines {c : Char} {s : List Char} (h : doublyQuoted none (c :: s) = none) :
    collapseLines (c :: s) = c :: collapseLines s := by
  by_cases hc : c = '\n'
  · rw [hc, collapseLines_lf]
  · show collapseLines ([c] ++ s) = [c] ++ collapseLines s
    refine collapseLines_append (by simpa using Ne.symm hc) ?_
    intro line hline _
    exact collapse_of_declines (declines_of_longer (List.cons_prefix_cons.2 ⟨rfl, hline⟩) h)

theorem collapseLines_of_name {name : List Char} (hne : name ≠ []) (hquote : '"' ∉ name)
    (hlf : '\n' ∉ name) (s : List Char) :
    collapseLines ('"' :: '"' :: (name ++ '"' :: '"' :: s)) = quoted name ++ collapseLines s := by
  have happ : ∀ t : List Char, '"' :: '"' :: (name ++ '"' :: '"' :: t) =
      ['"', '"'] ++ (name ++ ['"', '"']) ++ t := by simp
  rw [happ]
  refine collapseLines_append (by simp [hlf]) fun line _ _ => ?_
  rw [← happ]
  exact collapse_of_name hne hquote line

/-- Where a name reaches over a line end, its first quotes both stay in their line. -/
theorem collapseLines_of_split_name {name : List Char} (hquote : '"' ∉ name) (hlf : '\n' ∈ name)
    (s : List Char) : ∃ t, collapseLines ('"' :: '"' :: (name ++ s)) = '"' :: '"' :: t := by
  refine ⟨collapseLines (name ++ s), ?_⟩
  show collapseLines (['"', '"'] ++ (name ++ s)) = ['"', '"'] ++ collapseLines (name ++ s)
  refine collapseLines_append (by decide) fun line hline hlf' => ?_
  have hname : line <+: name := by
    rcases List.prefix_or_prefix_of_prefix hline (List.prefix_append name s) with h | h
    · exact h
    · exact absurd (h.subset hlf) hlf'
  have hcount := List.count_eq_zero.2 fun hq => hquote (hname.subset hq)
  have h : doublyQuoted none ('"' :: '"' :: line) = none := doublyQuoted_of_few_quotes (by simp [hcount])
  have h' : doublyQuoted none ('"' :: line) = none := doublyQuoted_of_few_quotes (by simp [hcount])
  show collapseDoubledQuotes ('"' :: '"' :: line) = '"' :: '"' :: collapseDoubledQuotes line
  rw [collapse_of_declines h, collapse_of_declines h']

/-- The whole text and its lines collapse alike exactly if no name that is found holds a line feed. -/
theorem collapseDoubledQuotes_eq_iff (s : List Char) :
    collapseDoubledQuotes s = collapseLines s ↔ ∀ name ∈ quotedNames s, '\n' ∉ name := by
  -- the two scans stay side by side up to the first name that holds a line feed
  induction hn : s.length using Nat.strongRecOn generalizing s with
  | ind n ih =>
    cases hs : doublyQuoted none s with
    | none =>
      cases s with
      | nil =>
        have hnames : quotedNames [] = [] := rfl
        rw [hnames]
        exact ⟨fun _ _ h => absurd h List.not_mem_nil, fun _ => rfl⟩
      | cons c s =>
        rw [collapse_of_declines hs, collapseLines_of_declines hs, quotedNames_of_declines hs,
          List.cons.injEq]
        simpa using ih _ (by simp [← hn]) s rfl
    | some hit =>
      obtain ⟨old, rest, rfl, -, -, name, hne, hquote, rfl, -⟩ := doublyQuoted_finds _ _ _ hs
      have happ : ['"', '"'] ++ (name ++ ['"', '"']) ++ rest =
          '"' :: '"' :: (name ++ '"' :: '"' :: rest) := by simp
      rw [happ] at hn ⊢
      rw [collapse_of_name hne hquote, quotedNames_of_name hne hquote, List.forall_mem_cons]
      by_cases hlf : '\n' ∈ name
      · constructor
        · intro h
          obtain ⟨t, ht⟩ := collapseLines_of_split_name hquote hlf ('"' :: '"' :: rest)
          obtain ⟨c, name, rfl⟩ := List.exists_cons_of_ne_nil hne
          rw [ht] at h
          have hc : c = '"' := (List.cons.inj (List.cons.inj h).2).1
          exact absurd (by simp [hc]) hquote
        · rintro ⟨h, -⟩
          exact absurd (by simp [quoted, hlf]) h
      · have hquoted : '\n' ∉ quoted name := by simp [quoted, hlf]
        have hlt : rest.length < n := by
          simp only [← hn, List.length_cons, List.length_append]
          omega
        rw [collapseLines_of_name hne hquote hlf, List.append_cancel_left_eq, ih _ hlt rest rfl]
        exact ⟨fun h => ⟨hquoted, h⟩, fun h => h.2⟩

/-! ## Conversions line by line -/

/-- Converting the dump as a whole gives what its kept lines convert to on their own, joined. -/
def ConvertsByLine (zone : Zone) (generatedAt : Stamp) (dump : List Char) : Prop :=
  ∃ bodies, List.Forall₂ (ConvertsTo zone generatedAt) (insertLines dump) bodies ∧
    ConvertsTo zone generatedAt dump (joinLines bodies)

theorem forall₂_convertsTo_iff (zone : Zone) (generatedAt : Stamp) {dump : List Char}
    {bodies : List (List Char)} : List.Forall₂ (ConvertsTo zone generatedAt) (insertLines dump) bodies ↔
      bodies = (insertLines dump).map fun line => collapseDoubledQuotes (rewriteValues zone line) := by
  have hline : ∀ line ∈ insertLines dump, ∀ alone, ConvertsTo zone generatedAt line alone ↔
      alone = collapseDoubledQuotes (rewriteValues zone line) := fun line hline alone =>
    convertsTo_line_iff zone generatedAt hline
  generalize insertLines dump = lines at hline ⊢
  induction lines generalizing bodies with
  | nil => rw [List.forall₂_nil_left_iff, List.map_nil]
  | cons line lines ih =>
    cases bodies with
    | nil => simp
    | cons alone bodies =>
      rw [List.forall₂_cons, List.map_cons, List.cons.injEq]
      exact and_congr (hline line List.mem_cons_self alone)
        (ih fun l hl => hline l (List.mem_cons_of_mem line hl))

theorem convertsByLine_iff_collapse (zone : Zone) (generatedAt : Stamp) {dump : List Char}
    (h : insertLines dump ≠ []) : ConvertsByLine zone generatedAt dump ↔
      collapseDoubledQuotes (rewriteValues zone (joinLines (insertLines dump))) =
        collapseLines (rewriteValues zone (joinLines (insertLines dump))) := by
  unfold ConvertsByLine
  simp only [forall₂_convertsTo_iff, exists_eq_left, convertsTo_iff zone generatedAt h, body_eq]
  rw [collapseLines, splitLines_rewriteValues zone h, List.map_map, Function.comp_def]
  exact eq_comm

/-- Lines are converted independently of each other exactly if no name between doubled quotes, as the
last rule finds them, reaches over a line end. -/
theorem convertsByLine_iff_quotedNames (zone : Zone) (generatedAt : Stamp) {dump : List Char}
    (h : insertLines dump ≠ []) : ConvertsByLine zone generatedAt dump ↔
      ∀ name ∈ quotedNames (rewriteValues zone (joinLines (insertLines dump))), '\n' ∉ name := by
  rw [convertsByLine_iff_collapse zone generatedAt h, collapseDoubledQuotes_eq_iff]

theorem convertsByLine_insert : ConvertsByLine .utc ⟨⟨2024, 1, 1⟩, 0, 0, 0⟩
    "INSERT INTO \"\"t\"\" VALUES(1);\nINSERT INTO u VALUES(2);".toList :=
  (convertsByLine_iff_quotedNames .utc _ (by decide)).2 (by decide)

/-- The empty value at the end of the first line is taken for the start of a name, which ends at the
table of the second line. -/
theorem not_convertsByLine_insert : ¬ ConvertsByLine .utc ⟨⟨2024, 1, 1⟩, 0, 0, 0⟩
    "INSERT INTO \"t\" VALUES(\"\");\nINSERT INTO \"\"u\"\" VALUES(2);".toList := by
  rw [convertsByLine_iff_collapse .utc _ (by decide)]
  decide

end SqlDump.DataOnly
