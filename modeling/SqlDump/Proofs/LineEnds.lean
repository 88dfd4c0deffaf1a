import SqlDump.Proofs.DataOnly.Wrapper
import SqlDump.Proofs.Dump
import SqlDump.Proofs.Rule.Border
import SqlDump.Proofs.SameDump
import SqlDump.Proofs.Schema.NormalForm
/-!
# Line ends of dumps and outputs

A dump is read with line feeds for all line ends, and no rule writes a carriage return. So two files whose texts
differ in their line ends only are converted alike, and no output holds a carriage return
(`runs_ignore_line_ends`).
-/

namespace SqlDump

open Rule Storage Text

/-! ## No rule writes a carriage return -/

namespace Rule

theorem no_cr_upcaseTypes {s : List Char} (h : '\r' ∉ s) : '\r' ∉ upcaseTypes s := by
  have hnames : ∀ name ∈ typeNames, name.toList ≠ [] ∧ '\r' ∉ name.toList.map Char.toUpper := by decide
  unfold upcaseTypes
  generalize typeNames = names at hnames ⊢
  induction names generalizing s with
  | nil => exact h
  | cons name names ih =>
    obtain ⟨hne, hname⟩ := hnames name List.mem_cons_self
    refine ih ?_ fun other hother => hnames other (List.mem_cons_of_mem name hother)
    refine (edits_replaceAll (wholeWord_finds _ hne) s).not_mem ?_ h
    rintro b old _ t ⟨-, -, -, rfl⟩
    exact hname

theorem no_cr_upcaseBooleans {s : List Char} (h : '\r' ∉ s) : '\r' ∉ upcaseBooleans s := by
  refine edits_upcaseBooleans (P := fun t => '\r' ∉ t) ?_ h
  intro s t phrase written hwritten hedits hs
  refine hedits.not_mem ?_ hs
  rintro b old _ u ⟨-, -, -, rfl⟩
  rcases hwritten with ⟨-, rfl⟩ | ⟨-, rfl⟩ <;> simp

theorem no_cr_serialKeys {s : List Char} (h : '\r' ∉ s) : '\r' ∉ serialKeys s := by
  have hedits : Edits _ (PhraseWritten foldCase keyPhrase "SERIAL PRIMARY KEY".toList) none s (serialKeys s) :=
    edits_replaceAll (wholeWord_finds _ (by decide)) s
  refine hedits.not_mem ?_ h
  rintro b _ _ t ⟨-, -, -, rfl⟩
  simp

end Rule

namespace Schema

/-- Every rule in turn keeps carriage returns out. -/
theorem no_cr_body {dump : List Char} (h : '\r' ∉ dump) : '\r' ∉ body dump := by
  have hquote : ∀ {b old new s}, QuoteAdded b old new s → '\r' ∉ new := by
    rintro b _ _ s ⟨-, rfl, -⟩
    simp
  rw [body_eq]
  have h := (edits_replaceAll pragma_finds dump).not_mem (by rintro b _ _ s ⟨_, -, -, -, rfl⟩; simp) h
  have h := (edits_replaceAll backticked_finds _).not_mem_of_old (by
    rintro b _ _ s ⟨name, -, -, rfl, rfl⟩ hold
    simpa [inBackticks, quoted] using hold) h
  have h := no_cr_upcaseTypes h
  have h := no_cr_serialKeys h
  have h := (edits_plainDefaultTime _).not_mem (by rintro b _ _ s ⟨-, rfl, -⟩; simp) h
  have h := no_cr_upcaseBooleans h
  have h := (edits_quoteInsertTarget _).not_mem hquote h
  have h := (edits_defaultLeadingNull _).not_mem (by rintro b _ _ s ⟨-, rfl, -⟩; simp) h
  have h := (edits_quoteReferences _).not_mem hquote h
  exact (edits_collapseBlankLines _).not_mem (by rintro b _ _ s ⟨_, -, -, -, rfl⟩; simp) h

theorem no_cr_convert {dump : List Char} (h : '\r' ∉ dump) : '\r' ∉ convert dump := by
  unfold convert preamble
  rw [String.toList_append, String.toList_append]
  simp [no_cr_body h]

end Schema

namespace DataOnly

open Time

theorem no_cr_render (generatedAt : Stamp) {body : List Char} (h : '\r' ∉ body) :
    '\r' ∉ render generatedAt body := by
  have hheader : '\r' ∉ joinLines (headerLines generatedAt) :=
    not_mem_intercalate (by decide) fun line hline => (surrounding_headerLines generatedAt line hline).no_cr
  have hfooter : '\r' ∉ joinLines footerLines :=
    not_mem_intercalate (by decide) fun line hline => (surrounding_footerLines line hline).no_cr
  rw [render_eq]
  simp [hheader, hfooter, h]

theorem no_cr_rewriteValues (zone : Zone) {s : List Char} (h : '\r' ∉ s) : '\r' ∉ rewriteValues zone s := by
  have h := (edits_quoteInsertTarget s).not_mem (by rintro b _ _ s ⟨-, rfl, -⟩; simp) h
  have h := (edits_convertEpochs zone _).not_mem (by
    rintro b _ _ s ⟨-, stamp, rfl, hstamp⟩ hmem
    simp only [singleQuoted, List.mem_cons, List.mem_append, List.not_mem_nil, or_false] at hmem
    rcases hmem with hmem | hmem | hmem
    · cases hmem
    · exact absurd (hstamp.chars _ hmem) (by decide)
    · cases hmem) h
  have h := booleanValues_keeps (P := fun t => '\r' ∉ t) (fun s t hedits hs => hedits.not_mem (by
    rintro b _ _ u ⟨⟨-, rfl⟩ | ⟨-, rfl⟩, -, -⟩ <;> simp) hs) h
  exact (edits_defaultLeadingNull _).not_mem (by rintro b _ _ s ⟨-, rfl, -⟩; simp) h

/-- No line brings in a carriage return, nor does any rule, nor the time in the header. -/
theorem no_cr_convert {zone : Zone} {generatedAt : Stamp} {dump : List Char} {output : Output} (h : '\r' ∉ dump)
    (hconvert : convert zone generatedAt dump = some output) : '\r' ∉ output.content := by
  by_cases hlines : insertLines dump = []
  · rw [convert_of_nil zone generatedAt hlines] at hconvert
    cases hconvert
  · rw [convert_of_ne_nil zone generatedAt hlines, body_eq, Option.some.injEq] at hconvert
    rw [← hconvert]
    have hjoined : '\r' ∉ joinLines (insertLines dump) := by
      refine not_mem_intercalate (by decide) fun line hline hmem => h ?_
      exact (infix_of_mem_splitLines (mem_insertLines.1 hline).1).subset hmem
    have hbody := (edits_collapseDoubledQuotes _).not_mem (by rintro b _ _ s ⟨-, rfl⟩; simp)
      (no_cr_rewriteValues zone hjoined)
    dsimp only
    exact no_cr_render generatedAt hbody

end DataOnly

/-! ## Runs -/

/-- What a run writes holds no carriage return. -/
theorem Run.Writes.exists_text {r : Run} {s : Storage} {q : Place} {bytes : ByteArray} (h : r.Writes s q bytes) :
    ∃ text, bytes = Dump.encodeText text ∧ '\r' ∉ text := by
  cases h with
  | schema _ hread _ _ => exact ⟨_, rfl, Schema.no_cr_convert (Dump.no_cr_read hread)⟩
  | dataOnly _ hread hconvert _ _ => exact ⟨_, rfl, DataOnly.no_cr_convert (Dump.no_cr_read hread) hconvert⟩

/-- Line ends are read in one scan. Runs on plain files whose texts differ in their line ends only are alike, and
no run writes a carriage return. -/
theorem runs_ignore_line_ends :
    (∀ t, normalizeNewlines t = unifyNewlines t ∧ '\r' ∉ normalizeNewlines t ∧
      normalizeNewlines (normalizeNewlines t) = normalizeNewlines t ∧ ('\r' ∉ t → normalizeNewlines t = t)) ∧
    (∀ lineEnd ∈ lineEnds, ∀ lines, (∀ line ∈ lines, '\r' ∉ line ∧ '\n' ∉ line) →
      unifyNewlines (lineEnd.intercalate lines) = joinLines lines) ∧
    (∀ (s s' : Storage) (input input' output : Path) (dryRun : Bool) (bytes bytes' : ByteArray) (t t' : List Char),
      Compression.ofPath input = .plain → Compression.ofPath input' = .plain →
      s.lookup input = .ok (.file bytes) → s'.lookup input' = .ok (.file bytes') →
      Dump.decodeText? bytes = some t → Dump.decodeText? bytes' = some t' → unifyNewlines t = unifyNewlines t' →
      Job.SameRuns ⟨input, output, dryRun⟩ ⟨input', output, dryRun⟩ s s') ∧
    ∀ (r : Run) (s : Storage) (q : Place),
      (∃ text, '\r' ∉ text ∧ r.Writes s q (Dump.encodeText text) ∧
        (r.exec s).fileAt q = some (Dump.encodeText text)) ∨
      (∀ bytes, ¬ r.Writes s q bytes) ∧ (r.exec s).fileAt q = s.fileAt q := by
  refine ⟨fun t => ?_, fun lineEnd hend lines hlines => unifyNewlines_intercalate hend hlines, ?_, ?_⟩
  · simp only [normalizeNewlines_eq]
    exact ⟨trivial, no_cr_unifyNewlines t, unifyNewlines_idempotent t, unifyNewlines_eq_self⟩
  · intro s s' input input' output dryRun bytes bytes' t t' hplain hplain' hlookup hlookup' htext htext' hsame
    have hdump : Job.SameDump ⟨input, output, dryRun⟩ ⟨input', output, dryRun⟩ s s' (unifyNewlines t) := {
      read := Dump.read_plain hplain hlookup htext
      read' := hsame ▸ Dump.read_plain hplain' hlookup' htext'
      output := rfl
      dryRun := rfl }
    exact hdump.sameRuns
  · intro r s q
    rcases r.fileAt_exec s q with ⟨bytes, hwrites, hfile⟩ | hno
    · obtain ⟨text, rfl, htext⟩ := hwrites.exists_text
      exact .inl ⟨text, htext, hwrites, hfile⟩
    · exact .inr hno

/-- The files `a` and `b` hold the same two lines, with different line ends. -/
theorem runs_ignore_line_ends_crlf :
    let s := (fresh.put [[0x68], [0x64], [0x61]] (.file (Dump.encodeText "x\r\ny\r".toList)) rfl).put
      [[0x68], [0x64], [0x62]] (.file (Dump.encodeText "x\ny\n".toList)) rfl
    (Job.runSchema ⟨⟨[0x62]⟩, ⟨[0x63]⟩, false⟩ s).1 = (Job.runSchema ⟨⟨[0x61]⟩, ⟨[0x63]⟩, false⟩ s).1 := by
  intro s
  have hsame := runs_ignore_line_ends.2.2.1 s s ⟨[0x61]⟩ ⟨[0x62]⟩ ⟨[0x63]⟩ false
    (Dump.encodeText "x\r\ny\r".toList) (Dump.encodeText "x\ny\n".toList) "x\r\ny\r".toList "x\ny\n".toList
    rfl rfl rfl rfl (Dump.decodeText?_encodeText _) (Dump.decodeText?_encodeText _) rfl
  exact (hsame.schema_alike (.refl s)).result

end SqlDump
