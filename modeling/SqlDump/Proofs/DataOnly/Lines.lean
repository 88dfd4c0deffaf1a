import SqlDump.DataOnly
import SqlDump.Proofs.Rule.Quoting
import SqlDump.Proofs.Rule.Value
import SqlDump.Proofs.Time.Epoch
/-!
# The lines of a conversion of the data alone

All rules but the last one work line by line (`linewise_rewriteValues`). The last one may match
across lines, but it takes quotes and nothing else, so that the lines stay where they are. With both
facts every kept line has its line in the output, which starts like it and differs from its own
conversion in quotes at most (`convert_lines`).
-/

namespace SqlDump.DataOnly

open Rule Text Time

/-! ## The rules before the last one -/

/-- What the rules make of a text before doubled quotes are collapsed. -/
def rewriteValues (zone : Zone) (s : List Char) : List Char :=
  defaultLeadingNull (booleanValues (zone.convertEpochs (quoteInsertTarget s)).1)

theorem linewise_rewriteValues (zone : Zone) : Linewise (rewriteValues zone) :=
  linewise_defaultLeadingNull.comp (linewise_booleanValues.comp
    ((linewise_convertEpochs zone).comp linewise_quoteInsertTarget))

theorem body_eq (zone : Zone) (lines : List (List Char)) :
    body zone lines = (collapseDoubledQuotes (rewriteValues zone (joinLines lines)),
      ⟨(lines.map fun line => (words line).countP isEpochWord).sum, 0⟩) := by
  have hcount : (words (quoteInsertTarget (joinLines lines))).countP isEpochWord =
      (lines.map fun line => (words line).countP isEpochWord).sum := by
    rw [words_quoteInsertTarget, words_joinLines, List.countP_flatMap]
    rfl
  rw [← hcount]
  unfold body rewriteValues
  rw [convertEpochs_eq]

theorem body_singleton (zone : Zone) (line : List Char) :
    (body zone [line]).1 = collapseDoubledQuotes (rewriteValues zone line) := by
  rw [body_eq, joinLines_singleton]

/-! ## Kept lines -/

/-- The line is kept: behind its blanks it starts with the keyword. -/
def Kept (line : List Char) : Prop := insertKeyword.isPrefixOf (trimStart line) = true

instance (line : List Char) : Decidable (Kept line) := inferInstanceAs (Decidable (_ = true))

theorem insertLines_eq (dump : List Char) :
    insertLines dump = (splitLines dump).filter fun line => Kept line :=
  List.filter_congr fun _ _ => Bool.decide_eq_true.symm

theorem mem_insertLines {dump line : List Char} :
    line ∈ insertLines dump ↔ line ∈ splitLines dump ∧ Kept line :=
  List.mem_filter

theorem insertLines_line {line : List Char} (hline : '\n' ∉ line) (hkept : Kept line) :
    insertLines line = [line] := by
  unfold insertLines
  rw [splitLines_line hline]
  exact List.filter_cons_of_pos hkept

theorem kept_iff {line : List Char} : Kept line ↔
    ∃ blanks rest, line = blanks ++ (insertKeyword ++ rest) ∧ ∀ c ∈ blanks, isBlank c = true := by
  constructor
  · intro h
    obtain ⟨rest, hrest⟩ := List.isPrefixOf_iff_prefix.1 h
    refine ⟨line.takeWhile isBlank, rest, ?_, fun c hc => List.all_eq_true.1 List.all_takeWhile c hc⟩
    rw [hrest, trimStart, List.takeWhile_append_dropWhile]
  · rintro ⟨blanks, rest, rfl, hblank⟩
    have hI : isBlank 'I' = false := by decide
    have htrim : trimStart (blanks ++ (insertKeyword ++ rest)) = insertKeyword ++ rest := by
      rw [trimStart, List.dropWhile_append_of_pos hblank]
      show ('I' :: ("NSERT INTO".toList ++ rest)).dropWhile isBlank = _
      rw [List.dropWhile_cons_of_neg (by simp [hI])]
      rfl
    unfold Kept
    rw [htrim]
    exact List.isPrefixOf_iff_prefix.2 (List.prefix_append _ _)

section Edits

variable {Keep : KeepAt} {Edit : EditAt} {before : Option Char} {s t : List Char}

theorem edits_behind_blanks {blanks : List Char} (hblank : ∀ c ∈ blanks, isBlank c = true)
    (hstart : ∀ {b old new s}, Edit b old new s → ∃ c, old.head? = some c ∧ isBlank c = false)
    (h : Edits Keep Edit before (blanks ++ s) t) :
    ∃ before' t', t = blanks ++ t' ∧ Edits Keep Edit before' s t' := by
  refine h.front fun {b old new s} e => ?_
  obtain ⟨c, hhead, hc⟩ := hstart e
  obtain ⟨old, rfl⟩ := List.head?_eq_some_iff.1 hhead
  refine .of_not_mem (fun hmem => ?_) old
  rw [hblank c hmem] at hc
  cases hc

theorem Kept.of_edits (hs : Kept s) (h : Edits Keep Edit before s t)
    (hstart : ∀ {b old new s}, Edit b old new s → ∃ c, old.head? = some c ∧ isBlank c = false)
    (hkeyword : ∀ {b old new s}, Edit b old new s → NoMeet insertKeyword old) : Kept t := by
  obtain ⟨blanks, rest, rfl, hblank⟩ := kept_iff.1 hs
  obtain ⟨b, t, rfl, h'⟩ := edits_behind_blanks hblank hstart h
  obtain ⟨b, t', rfl, -⟩ := h'.front fun e => hkeyword e
  exact kept_iff.2 ⟨blanks, t', rfl, hblank⟩

end Edits

theorem kept_quoteInsertTarget {line : List Char} (hline : Kept line) : Kept (quoteInsertTarget line) := by
  obtain ⟨blanks, rest, rfl, hblank⟩ := kept_iff.1 hline
  have h := edits_replaceAll insertTarget_finds (blanks ++ (insertKeyword ++ rest))
  obtain ⟨b, t, ht, h⟩ := edits_behind_blanks hblank (by
    rintro b _ _ s ⟨name, -, -, -, rfl, -⟩
    exact ⟨'I', rfl, by decide⟩) h
  suffices ∃ rest', t = insertKeyword ++ rest' by
    obtain ⟨rest', rfl⟩ := this
    exact kept_iff.2 ⟨blanks, rest', ht, hblank⟩
  -- the table name of this very keyword may be quoted, or no edit starts inside the keyword
  have hs : insertKeyword ++ rest = 'I' :: ("NSERT INTO".toList ++ rest) := rfl
  rw [hs] at h
  generalize hs' : 'I' :: ("NSERT INTO".toList ++ rest) = s at h
  cases h with
  | nil => cases hs'
  | keep _ h =>
    obtain ⟨rfl, rfl⟩ := List.cons.inj hs'
    obtain ⟨-, rest', rfl, -⟩ := h.front (by
      rintro b _ _ s ⟨name, -, -, -, rfl, -⟩
      exact .append (by decide) name)
    exact ⟨rest', rfl⟩
  | edit e _ =>
    obtain ⟨name, -, -, -, -, rfl⟩ := e
    exact ⟨' ' :: (quoted name ++ _), rfl⟩

theorem kept_convertEpochs (zone : Zone) {line : List Char} (hline : Kept line) :
    Kept (zone.convertEpochs line).1 := by
  have hhead : ∀ {b old new s}, EpochWritten b old new s → ∃ digits, old = '1' :: digits := by
    rintro b old _ s ⟨hold, -⟩
    exact List.head?_eq_some_iff.1 (isEpochWord_iff.1 hold).1
  refine hline.of_edits (edits_convertEpochs zone line) ?_ ?_
  · intro b old new s e
    obtain ⟨digits, rfl⟩ := hhead e
    exact ⟨'1', rfl, by decide⟩
  · intro b old new s e
    obtain ⟨digits, rfl⟩ := hhead e
    exact .of_not_mem (by decide) digits

theorem kept_booleanValues {line : List Char} (hline : Kept line) : Kept (booleanValues line) := by
  refine booleanValues_keeps ?_ hline
  intro s t h hs
  refine hs.of_edits h ?_ ?_
  · rintro b _ _ s ⟨⟨rfl, -⟩ | ⟨rfl, -⟩, -, -⟩
    · exact ⟨'0', rfl, by decide⟩
    · exact ⟨'1', rfl, by decide⟩
  · rintro b _ _ s ⟨⟨rfl, -⟩ | ⟨rfl, -⟩, -, -⟩
    · exact .of_not_mem (by decide) []
    · exact .of_not_mem (by decide) []

theorem kept_defaultLeadingNull {line : List Char} (hline : Kept line) :
    Kept (defaultLeadingNull line) := by
  refine hline.of_edits (edits_defaultLeadingNull line) ?_ ?_
  · rintro b _ _ s ⟨rfl, -, -, -⟩
    exact ⟨'N', rfl, by decide⟩
  · rintro b _ _ s ⟨rfl, -, -, -⟩
    decide

theorem kept_rewriteValues (zone : Zone) {line : List Char} (hline : Kept line) :
    Kept (rewriteValues zone line) :=
  kept_defaultLeadingNull (kept_booleanValues (kept_convertEpochs zone (kept_quoteInsertTarget hline)))

/-! ## Collapsing doubled quotes -/

/-- A text without its double quotes. -/
def withoutQuotes (s : List Char) : List Char := s.filter (· != '"')

theorem withoutQuotes_eq {before : Option Char} {s t : List Char}
    (h : Edits Freely QuoteHalved before s t) : withoutQuotes t = withoutQuotes s := by
  unfold withoutQuotes
  induction h with
  | nil => rfl
  | keep _ _ ih => rw [List.filter_cons, List.filter_cons, ih]
  | edit e _ ih =>
    obtain ⟨rfl, rfl⟩ := e
    simpa using ih

theorem lines_of_quoteHalved {before : Option Char} {s t : List Char}
    (h : Edits Freely QuoteHalved before s t) :
    List.Forall₂ (fun line line' => ∀ b, Edits Freely QuoteHalved b line line') (splitLines s)
      (splitLines t) := by
  -- whichever quotes are taken, they are taken within one line
  induction h with
  | nil => exact .cons (fun _ => .nil) .nil
  | @keep b c s t _ _ ih =>
    by_cases hc : c = '\n'
    · have hlf : '\n' ∉ ([] : List Char) := by simp
      subst hc
      rw [← List.nil_append ('\n' :: s), ← List.nil_append ('\n' :: t), splitLines_append_cons hlf,
        splitLines_append_cons hlf]
      exact .cons (fun _ => .nil) ih
    · have hlf : '\n' ∉ [c] := by simpa using Ne.symm hc
      exact forall₂_splitLines_append hlf hlf (fun h b => .keep trivial (h _)) ih
  | edit e _ ih =>
    obtain ⟨rfl, rfl⟩ := e
    exact forall₂_splitLines_append (by decide) (by decide) (fun h b => halveQuotes b (h _)) ih

theorem kept_of_quoteHalved {before : Option Char} {s t : List Char} (hs : Kept s)
    (h : Edits Freely QuoteHalved before s t) : Kept t := by
  refine hs.of_edits h ?_ ?_
  · rintro b _ _ s ⟨rfl, -⟩
    exact ⟨'"', rfl, by decide⟩
  · rintro b _ _ s ⟨rfl, -⟩
    exact .of_not_mem (by decide) ['"']

/-! ## The lines of the output -/

theorem convert_of_ne_nil (zone : Zone) (generatedAt : Stamp) {dump : List Char}
    (h : insertLines dump ≠ []) : convert zone generatedAt dump = some
      ⟨render generatedAt (body zone (insertLines dump)).1,
        ⟨(insertLines dump).length, (body zone (insertLines dump)).2⟩⟩ := by
  unfold convert
  rw [if_neg (by simpa using h)]

theorem convert_of_nil (zone : Zone) (generatedAt : Stamp) {dump : List Char}
    (h : insertLines dump = []) : convert zone generatedAt dump = none := by
  unfold convert
  rw [h]
  rfl

/-- A dump converts to this text between header and footer. -/
def ConvertsTo (zone : Zone) (generatedAt : Stamp) (dump text : List Char) : Prop :=
  ∃ stats, convert zone generatedAt dump = some ⟨header generatedAt ++ text ++ footer, stats⟩

theorem convertsTo_iff (zone : Zone) (generatedAt : Stamp) {dump text : List Char}
    (h : insertLines dump ≠ []) :
    ConvertsTo zone generatedAt dump text ↔ text = (body zone (insertLines dump)).1 := by
  unfold ConvertsTo
  rw [convert_of_ne_nil zone generatedAt h]
  constructor
  · rintro ⟨stats, hstats⟩
    rw [Option.some.injEq, Output.mk.injEq, render, List.append_left_inj, List.append_right_inj] at hstats
    exact hstats.1.symm
  · intro ht
    rw [ht]
    exact ⟨_, rfl⟩

theorem convertsTo_line_iff (zone : Zone) (generatedAt : Stamp) {dump line text : List Char}
    (h : line ∈ insertLines dump) : ConvertsTo zone generatedAt line text ↔
      text = collapseDoubledQuotes (rewriteValues zone line) := by
  obtain ⟨hsplit, hkept⟩ := mem_insertLines.1 h
  have hlines := insertLines_line (not_mem_of_mem_splitLines hsplit) hkept
  rw [convertsTo_iff zone generatedAt (by rw [hlines]; simp), hlines, body_singleton]

theorem splitLines_rewriteValues (zone : Zone) {dump : List Char} (h : insertLines dump ≠ []) :
    splitLines (rewriteValues zone (joinLines (insertLines dump))) =
      (insertLines dump).map (rewriteValues zone) := by
  have hlf : ∀ line ∈ insertLines dump, '\n' ∉ line := fun line hline =>
    not_mem_of_mem_splitLines (mem_insertLines.1 hline).1
  rw [(linewise_rewriteValues zone).joinLines hlf]
  refine splitLines_joinLines ?_ (by simpa using h)
  intro line hline
  obtain ⟨source, hsource, rfl⟩ := List.mem_map.1 hline
  exact (linewise_rewriteValues zone).line (hlf source hsource)

/-- Each kept line becomes one line of the converted data, in order, which is kept too. It is what the rules make
of the line, but for quotes that are collapsed. -/
theorem lines_collapse (zone : Zone) {dump : List Char} (h : insertLines dump ≠ []) :
    List.Forall₂ (fun line line' => Kept line' ∧ withoutQuotes line' = withoutQuotes (rewriteValues zone line))
      (insertLines dump)
      (splitLines (collapseDoubledQuotes (rewriteValues zone (joinLines (insertLines dump))))) := by
  -- the last rule keeps the lines apart, and the rules before it work on each of them
  have hlines := lines_of_quoteHalved
    (edits_collapseDoubledQuotes (rewriteValues zone (joinLines (insertLines dump))))
  rw [splitLines_rewriteValues zone h, List.forall₂_map_left_iff] at hlines
  refine ((List.forall₂_and_left _ _).2 ⟨fun line hline => hline, hlines⟩).imp ?_
  rintro line line' ⟨hline, hedits⟩
  have hkept := kept_rewriteValues zone (mem_insertLines.1 hline).2
  exact ⟨kept_of_quoteHalved hkept (hedits none), withoutQuotes_eq (hedits none)⟩

/-- The lines that start with the keyword behind their blanks are kept, in order. Each of them comes out as one line,
which starts with the keyword too and is, quotes aside, what the line converts to on its own. All epoch values in
them are converted and counted. -/
theorem convert_lines (zone : Zone) (generatedAt : Stamp) (dump : List Char) :
    let lines := (splitLines dump).filter fun line => Kept line
    if lines = [] then convert zone generatedAt dump = none
    else ∃ text,
      convert zone generatedAt dump = some ⟨header generatedAt ++ text ++ footer, ⟨lines.length,
        ⟨(lines.map fun line => (words line).countP isEpochWord).sum, 0⟩⟩⟩ ∧
      List.Forall₂ (fun line line' => Kept line' ∧
          ∃ alone, ConvertsTo zone generatedAt line alone ∧ withoutQuotes line' = withoutQuotes alone)
        lines (splitLines text) := by
  intro lines
  have hlines : insertLines dump = lines := insertLines_eq dump
  split
  case isTrue h => exact convert_of_nil zone generatedAt (hlines.trans h)
  case isFalse h =>
    have hne : insertLines dump ≠ [] := hlines ▸ h
    rw [← hlines]
    refine ⟨collapseDoubledQuotes (rewriteValues zone (joinLines (insertLines dump))), ?_, ?_⟩
    · rw [convert_of_ne_nil zone generatedAt hne, body_eq, render]
    · refine ((List.forall₂_and_left _ _).2 ⟨fun line hline => hline, lines_collapse zone hne⟩).imp ?_
      rintro line line' ⟨hline, hkept, hquotes⟩
      refine ⟨hkept, _, (convertsTo_line_iff zone generatedAt hline).2 rfl, ?_⟩
      rw [hquotes, withoutQuotes_eq (edits_collapseDoubledQuotes _)]

/-- Two statements with other lines around them, one of which only speaks of a statement. -/
theorem convert_lines_between :
    let generatedAt : Stamp := ⟨⟨2024, 1, 1⟩, 0, 0, 0⟩
    let dump := joinLines ["PRAGMA foreign_keys=OFF;".toList, "INSERT INTO t VALUES(1609459200,1);".toList, [],
      "-- INSERT INTO t VALUES(1700000000);".toList, " INSERT INTO u VALUES(NULL,'x');".toList, "COMMIT;".toList]
    ∃ text, convert .utc generatedAt dump = some ⟨header generatedAt ++ text ++ footer, ⟨2, ⟨1, 0⟩⟩⟩ ∧
      List.Forall₂ (fun line line' => Kept line' ∧
          ∃ alone, ConvertsTo .utc generatedAt line alone ∧ withoutQuotes line' = withoutQuotes alone)
        ["INSERT INTO t VALUES(1609459200,1);".toList, " INSERT INTO u VALUES(NULL,'x');".toList]
        (splitLines text) := by
  intro generatedAt dump
  have hlines : ((splitLines dump).filter fun line => Kept line) =
      ["INSERT INTO t VALUES(1609459200,1);".toList, " INSERT INTO u VALUES(NULL,'x');".toList] := by
    decide +kernel
  have hcount : (["INSERT INTO t VALUES(1609459200,1);".toList, " INSERT INTO u VALUES(NULL,'x');".toList].map
      fun line => (words line).countP isEpochWord).sum = 1 := by
    decide +kernel
  have h := convert_lines .utc generatedAt dump
  dsimp only at h
  rw [hlines, hcount, if_neg (List.cons_ne_nil _ _)] at h
  exact h

end SqlDump.DataOnly
