import SqlDump.Proofs.DataOnly.Lines
/-!
# The normal form of converted data

Table names are quoted first, and what is quoted has to stay so while time stamps, truth values and
defaults are written and doubled quotes are collapsed. The same goes for each later rule.
-/

namespace SqlDump.DataOnly

open Rule Text Time

/-- What the rules promise of converted data, all at once. Of the places of truth values, those
between two commas are left out: in `,0,0,` one stays. -/
structure Normal (s : List Char) : Prop where
  targets_quoted : TargetsQuoted s
  no_epoch : ∀ w ∈ words s, isEpochWord w = false
  no_digit_at_border : ∀ place ∈ ["(0,", "(1,", ",0)", ",1)"], ¬ place.toList <:+: s
  no_leading_null : ¬ "VALUES(NULL,".toList <:+: s

theorem not_infix_collapseDoubledQuotes {f s : List Char} (hf : f ≠ []) (hno : NoOverlap f ['"'])
    (h : ¬ f <:+: s) : ¬ f <:+: collapseDoubledQuotes s :=
  (edits_collapseDoubledQuotes s).not_infix_result hf (quoteHalved_foreign hno) h

theorem targetsQuoted_collapse (zone : Zone) (s : List Char) :
    TargetsQuoted (collapseDoubledQuotes (rewriteValues zone s)) := by
  have hne : "INSERT INTO ".toList ≠ [] := by decide
  have hbare : Bare (some '1') ∧ Bare (some '0') ∧ Bare (some 'N') := by
    unfold Bare
    decide
  rw [targetsQuoted_iff]
  intro ho
  -- backwards from the last rule to the one that quotes table names
  have ho := (edits_collapseDoubledQuotes _).occurs_source hne (quoteHalved_foreign (by decide)) ho
  have ho := (edits_defaultLeadingNull _).occurs_source hne (between_foreign (by decide) (by decide)
    (by decide) (fun _ => trivial) fun _ => hbare.2.2) ho
  refine booleanValues_keeps (P := fun t => ¬ Occurs Anything "INSERT INTO ".toList Bare t) ?_ ?_ ho
  · intro s t h hs ho
    refine hs (h.occurs_source hne (truthWritten_foreign (by decide) (fun _ _ _ => trivial) ?_) ho)
    rintro c (rfl | rfl)
    · exact hbare.2.1
    · exact hbare.1
  · intro ho
    refine no_bare_quoteInsertTarget s ((edits_convertEpochs zone _).occurs_source hne ?_ ho)
    exact epochWritten_foreign (d := 'I') (by decide) (by decide) (by decide) (fun _ _ _ => trivial)
      fun _ => hbare.1

/-- Time stamps are too short for epoch values, and the other words that are written hold no digit. -/
theorem no_epoch_collapse (zone : Zone) (s : List Char) :
    ∀ w ∈ words (collapseDoubledQuotes (rewriteValues zone s)), isEpochWord w = false := by
  intro w hw
  rw [words_collapseDoubledQuotes] at hw
  rcases mem_words_defaultLeadingNull _ w hw with hw | rfl
  · rcases mem_words_booleanValues _ w hw with hw | rfl | rfl
    · exact no_epoch_convertEpochs zone _ w hw
    · decide
    · decide
  · decide

theorem no_digit_at_border_collapse (zone : Zone) (s : List Char) :
    ∀ place ∈ ["(0,", "(1,", ",0)", ",1)"],
      ¬ place.toList <:+: collapseDoubledQuotes (rewriteValues zone s) := by
  intro place hplace
  obtain ⟨hne, hquote, hnull⟩ : place.toList ≠ [] ∧ NoOverlap place.toList ['"'] ∧
      NoOverlap place.toList "DEFAULT".toList := by
    revert place
    decide
  obtain ⟨written, hmem, hno⟩ : ∃ written, (place, written) ∈ booleanPlaces ∧
      NoOverlap place.toList written.toList := by
    simp only [List.mem_cons, List.not_mem_nil, or_false] at hplace
    rcases hplace with rfl | rfl | rfl | rfl
    · exact ⟨"(FALSE,", by decide, by decide⟩
    · exact ⟨"(TRUE,", by decide, by decide⟩
    · exact ⟨",FALSE)", by decide, by decide⟩
    · exact ⟨",TRUE)", by decide, by decide⟩
  refine not_infix_collapseDoubledQuotes hne hquote ?_
  refine (edits_defaultLeadingNull _).not_infix_result hne ?_ (not_infix_booleanValues hmem hno _)
  exact between_foreign (by decide) (by decide) hnull (fun _ => trivial) fun _ => trivial

/-- The rules in turn lead to the normal form. -/
theorem normal_collapse (zone : Zone) (s : List Char) : Normal (collapseDoubledQuotes (rewriteValues zone s)) where
  targets_quoted := targetsQuoted_collapse zone s
  no_epoch := no_epoch_collapse zone s
  no_digit_at_border := no_digit_at_border_collapse zone s
  no_leading_null := not_infix_collapseDoubledQuotes (by decide) (by decide) (not_infix_defaultLeadingNull _)

/-- The data of every dump with a kept line is converted to normal form. -/
theorem convert_data_normal (zone : Zone) (generatedAt : Stamp) {dump : List Char}
    (h : insertLines dump ≠ []) : ∃ text, ConvertsTo zone generatedAt dump text ∧ Normal text := by
  refine ⟨_, (convertsTo_iff zone generatedAt h).2 rfl, ?_⟩
  simp only [body_eq]
  exact normal_collapse zone _

theorem convert_data_normal_insert : ∃ text, ConvertsTo .localTime ⟨⟨2024, 1, 1⟩, 0, 0, 0⟩
    "INSERT INTO t VALUES(NULL,1609459200,0);".toList text ∧ Normal text :=
  convert_data_normal .localTime _ (by decide)

end SqlDump.DataOnly
