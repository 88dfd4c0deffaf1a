import SqlDump.Proofs.DataOnly.Lines
/-!
# The lines around converted data

Header and footer are whole lines (`render_eq`). None of them starts like a statement, so that the statements of
an output are its converted lines (`insertLines_render`).
-/

namespace SqlDump.DataOnly

open Text Time

/-- The lines in front of the converted ones. -/
def headerLines (generatedAt : Stamp) : List (List Char) :=
  ["-- Data import for PostgreSQL (converted from SQLite)".toList, "-- Generated on ".toList ++ generatedAt.text,
    "SET client_encoding = 'UTF8';".toList, "SET standard_conforming_strings = on;".toList, [],
    "-- Temporarily disable foreign key checks for data import".toList,
    "SET session_replication_role = replica;".toList, []]

/-- The lines behind the converted ones. -/
def footerLines : List (List Char) :=
  [[], "-- Re-enable foreign key checks".toList, "SET session_replication_role = DEFAULT;".toList, []]

set_option maxRecDepth 1024 in
theorem header_eq (generatedAt : Stamp) : header generatedAt = joinLines (headerLines generatedAt) ++ ['\n'] := by
  unfold header headerLines
  rw [String.toList_append, String.toList_append, String.toList_append]
  simp [joinLines]

theorem footer_eq : footer = '\n' :: joinLines footerLines := by
  unfold footer footerLines
  rw [String.toList_append]
  simp [joinLines]

theorem render_eq (generatedAt : Stamp) (body : List Char) : render generatedAt body =
    joinLines (headerLines generatedAt) ++ '\n' :: (body ++ '\n' :: joinLines footerLines) := by
  unfold render
  rw [header_eq, footer_eq]
  simp

/-- What the lines around the data are: lines without line ends of their own, and no statements. -/
@[mk_iff]
structure Surrounding (line : List Char) : Prop where
  no_lf : '\n' ∉ line
  no_cr : '\r' ∉ line
  not_kept : ¬ Kept line

instance : DecidablePred Surrounding := fun line => decidable_of_iff _ (surrounding_iff line).symm

theorem surrounding_generated (generatedAt : Stamp) :
    Surrounding ("-- Generated on ".toList ++ generatedAt.text) := by
  have hstamp : ∀ {c}, c.isDigit = false ∧ c ∉ ['-', '+', ' ', ':'] → c ∉ generatedAt.text := by
    rintro c ⟨hdigit, hother⟩ hc
    rcases Stamp.mem_text_signed hc with h | h
    · rw [hdigit] at h
      cases h
    · exact hother h
  refine ⟨?_, ?_, ?_⟩
  · rw [List.mem_append, not_or]
    exact ⟨by decide, hstamp (by decide)⟩
  · rw [List.mem_append, not_or]
    exact ⟨by decide, hstamp (by decide)⟩
  · intro hkept
    cases hkept

theorem surrounding_headerLines (generatedAt : Stamp) : ∀ line ∈ headerLines generatedAt, Surrounding line := by
  unfold headerLines
  rw [List.forall_mem_cons, List.forall_mem_cons]
  exact ⟨by decide, surrounding_generated generatedAt, by decide⟩

theorem surrounding_footerLines : ∀ line ∈ footerLines, Surrounding line := by
  decide

/-- Whatever stands between header and footer, the statements of an output are those among its lines. -/
theorem insertLines_render (generatedAt : Stamp) (body : List Char) :
    insertLines (render generatedAt body) = insertLines body := by
  have hsplit : splitLines (render generatedAt body) =
      headerLines generatedAt ++ (splitLines body ++ footerLines) := by
    have hheader : splitLines (joinLines (headerLines generatedAt)) = headerLines generatedAt :=
      splitLines_joinLines (fun line hline => (surrounding_headerLines generatedAt line hline).no_lf)
        (List.cons_ne_nil _ _)
    have hfooter : splitLines (joinLines footerLines) = footerLines :=
      splitLines_joinLines (fun line hline => (surrounding_footerLines line hline).no_lf) (List.cons_ne_nil _ _)
    rw [render_eq, splitLines_append_lf, splitLines_append_lf, hheader, hfooter]
  have hheader : (headerLines generatedAt).filter (fun line => insertKeyword.isPrefixOf (trimStart line)) = [] :=
    List.filter_eq_nil_iff.2 fun line hline => (surrounding_headerLines generatedAt line hline).not_kept
  have hfooter : footerLines.filter (fun line => insertKeyword.isPrefixOf (trimStart line)) = [] :=
    List.filter_eq_nil_iff.2 fun line hline => (surrounding_footerLines line hline).not_kept
  unfold insertLines
  rw [hsplit, List.filter_append, List.filter_append, hheader, hfooter, List.nil_append, List.append_nil]

end SqlDump.DataOnly
