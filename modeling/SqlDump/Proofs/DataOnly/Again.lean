import SqlDump.Proofs.DataOnly.NormalForm
import SqlDump.Proofs.DataOnly.Wrapper
import SqlDump.Proofs.Rule.Border
/-!
# Converting an output again

Of an output the converted lines are read again, all of them and no others (`insertLines_output`). Table names,
epoch values and leading `NULL` are done with after the first conversion, so that a second one has only truth values
and doubled quotes left to write (`convert_output`).
-/

namespace SqlDump.DataOnly

open Rule Text Time

variable {dump : List Char}

/-- The converted lines are kept lines. -/
theorem kept_of_mem_body (zone : Zone) (h : insertLines dump ≠ []) :
    ∀ line ∈ splitLines (body zone (insertLines dump)).1, Kept line := by
  simp only [body_eq]
  exact ((List.forall₂_and_left _ _).1 (lines_collapse zone h).flip).1

/-- The statements of an output are the converted lines. -/
theorem insertLines_output (zone : Zone) (generatedAt : Stamp) (h : insertLines dump ≠ []) :
    insertLines (render generatedAt (body zone (insertLines dump)).1) =
      splitLines (body zone (insertLines dump)).1 := by
  rw [insertLines_render]
  exact List.filter_eq_self.2 (kept_of_mem_body zone h)

/-! ## The rules on their own result -/

/-- Truth values bring no leading `NULL` back. -/
theorem no_leading_null_booleanValues {s : List Char} (h : ¬ "VALUES(NULL,".toList <:+: s) :
    ¬ "VALUES(NULL,".toList <:+: booleanValues s := by
  refine booleanValues_keeps (P := fun t => ¬ "VALUES(NULL,".toList <:+: t) (fun s t hedits hs => ?_) h
  refine hedits.not_infix_result (by decide) ?_ hs
  exact truthWritten_foreign (by decide) (fun _ _ _ => trivial) fun _ _ => trivial

/-- In a text in normal form only truth values and doubled quotes are left to write. -/
theorem body_of_normal {s : List Char} (h : Normal s) (zone : Zone) :
    body zone (splitLines s) = (collapseDoubledQuotes (booleanValues s), ⟨0, 0⟩) := by
  unfold body
  rw [joinLines_splitLines, quoteInsertTarget_of_targetsQuoted h.targets_quoted,
    convertEpochs_eq_self zone h.no_epoch]
  dsimp only
  rw [defaultLeadingNull_eq_self (no_leading_null_booleanValues h.no_leading_null)]

/-- Of an output the converted lines are read again and no others. A second conversion, in any zone and at any time,
finds no epoch value in them. It writes truth values, collapses doubled quotes, and changes nothing else. -/
theorem convert_output (zone : Zone) (generatedAt : Stamp) (h : insertLines dump ≠ []) : ∃ text stats,
    convert zone generatedAt dump = some ⟨render generatedAt text, stats⟩ ∧
    insertLines (render generatedAt text) = splitLines text ∧
    ∀ zone' generatedAt', convert zone' generatedAt' (render generatedAt text) =
      some ⟨render generatedAt' (collapseDoubledQuotes (booleanValues text)), ⟨stats.insertStatements, ⟨0, 0⟩⟩⟩ := by
  have hlines := insertLines_output zone generatedAt h
  have hlength : (splitLines (body zone (insertLines dump)).1).length = (insertLines dump).length := by
    simp only [body_eq]
    exact (lines_collapse zone h).length_eq.symm
  have hnormal : Normal (body zone (insertLines dump)).1 := by
    simp only [body_eq]
    exact normal_collapse zone _
  refine ⟨_, _, convert_of_ne_nil zone generatedAt h, hlines, fun zone' generatedAt' => ?_⟩
  have hne : insertLines (render generatedAt (body zone (insertLines dump)).1) ≠ [] := by
    rw [hlines]
    exact splitLines_ne_nil _
  rw [convert_of_ne_nil zone' generatedAt' hne, hlines, body_of_normal hnormal, hlength]

/-- Of the three zeros in a row the first conversion leaves the middle one, which the second one writes. -/
theorem convert_output_zeros : ∃ text stats,
    convert .utc ⟨⟨2024, 1, 1⟩, 0, 0, 0⟩ "INSERT INTO t VALUES(7,0,0,0,1609459200);".toList =
      some ⟨render ⟨⟨2024, 1, 1⟩, 0, 0, 0⟩ text, stats⟩ ∧
    convert .localTime ⟨⟨2025, 1, 1⟩, 0, 0, 0⟩ (render ⟨⟨2024, 1, 1⟩, 0, 0, 0⟩ text) =
      some ⟨render ⟨⟨2025, 1, 1⟩, 0, 0, 0⟩ (collapseDoubledQuotes (booleanValues text)),
        ⟨stats.insertStatements, ⟨0, 0⟩⟩⟩ := by
  have hne : insertLines "INSERT INTO t VALUES(7,0,0,0,1609459200);".toList ≠ [] := by decide
  obtain ⟨text, stats, hconvert, -, hagain⟩ := convert_output .utc ⟨⟨2024, 1, 1⟩, 0, 0, 0⟩ hne
  exact ⟨text, stats, hconvert, hagain .localTime ⟨⟨2025, 1, 1⟩, 0, 0, 0⟩⟩

end SqlDump.DataOnly
