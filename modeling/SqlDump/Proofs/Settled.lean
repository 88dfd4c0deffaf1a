import SqlDump.Proofs.DataOnly.Again
import SqlDump.Proofs.Rule.Kept
import SqlDump.Proofs.Schema.NormalForm
/-!
# Dumps with nothing to convert

A text in normal form is kept by the rules that lead to it (`Schema.normal_iff_kept`). It may still hold what the other
rules look for: directives, backticks and references, or, in the data, digits in a row and doubled quotes. Without
these it is `Settled`, and no rule changes it (`conversions_keep_settled`).
-/

namespace SqlDump.Schema

open Rule Text

variable {s : List Char}

/-- The normal form is what all the rules keep that bring it about. -/
theorem normal_iff_kept : Normal s ↔ ∀ rule ∈ [upcaseTypes, serialKeys, plainDefaultTime, upcaseBooleans,
    quoteInsertTarget, defaultLeadingNull, collapseBlankLines], rule s = s := by
  simp only [List.forall_mem_cons, List.not_mem_nil, false_implies, implies_true, and_true, upcaseTypes_eq_self_iff,
    serialKeys_eq_self_iff, plainDefaultTime_eq_self_iff, upcaseBooleans_eq_self_iff, quoteInsertTarget_eq_self_iff,
    defaultLeadingNull_eq_self_iff, collapseBlankLines_eq_self_iff]
  constructor
  · intro h
    exact ⟨h.types_upcased, h.no_counting_key, h.no_wrapped_default, h.truth_upcased, h.targets_quoted,
      h.no_leading_null, h.blank_lines_bare⟩
  · rintro ⟨htypes, hkey, htime, htruth, htargets, hnull, hlines⟩
    exact {
      targets_quoted := htargets
      no_leading_null := hnull
      no_wrapped_default := htime
      no_counting_key := hkey
      types_upcased := htypes
      truth_upcased := htruth
      blank_lines_bare := hlines }

/-- A dump in normal form that opens nothing which the other rules rewrite. -/
@[mk_iff]
structure Settled (s : List Char) : Prop extends Normal s where
  no_directive : ¬ "PRAGMA".toList <:+: s
  no_backtick : '\x60' ∉ s
  no_reference : ¬ "REFERENCES ".toList <:+: s

instance : DecidablePred Normal := fun _ => decidable_of_iff _ normal_iff_kept.symm

instance : DecidablePred Settled := fun s => decidable_of_iff _ (settled_iff s).symm

/-- Each rule hands a settled dump on as it is, and with it all that the next rule asks for. -/
theorem body_of_settled (h : Settled s) : body s = s := by
  have hkept := normal_iff_kept.1 h.toNormal
  unfold body
  refine foldl_eq_self ?_
  simp only [List.forall_mem_cons, List.not_mem_nil, false_implies, implies_true, and_true] at hkept ⊢
  obtain ⟨htypes, hkey, htime, htruth, htargets, hnull, hlines⟩ := hkept
  exact ⟨stripPragmas_of_no_keyword h.no_directive, quoteBackticked_eq_self h.no_backtick, htypes, hkey, htime, htruth,
    htargets, hnull, quoteReferences_of_no_keyword h.no_reference, hlines⟩

end SqlDump.Schema

namespace SqlDump.DataOnly

open Rule Text Time

variable {s : List Char}

attribute [mk_iff] Normal

/-- Data in normal form in which no digit stands between two commas and no two double quotes next to each other. -/
@[mk_iff]
structure Settled (s : List Char) : Prop extends Normal s where
  no_digit_in_row : ∀ place ∈ [",0,", ",1,"], ¬ place.toList <:+: s
  no_doubled_quote : ¬ ['"', '"'] <:+: s

instance : DecidablePred Normal := fun s => decidable_of_iff _ (normal_iff s).symm

instance : DecidablePred Settled := fun s => decidable_of_iff _ (settled_iff s).symm

theorem Settled.no_boolean_place (h : Settled s) : ∀ place ∈ booleanPlaces, ¬ place.1.toList <:+: s := by
  have hplaces : ∀ place ∈ booleanPlaces,
      place.1 ∈ [",0,", ",1,"] ∨ place.1 ∈ ["(0,", "(1,", ",0)", ",1)"] := by decide
  intro place hplace
  rcases hplaces place hplace with hrow | hborder
  · exact h.no_digit_in_row _ hrow
  · exact h.no_digit_at_border _ hborder

/-- Settled data is kept as it is, and no epoch value is found in it. -/
theorem body_of_settled (h : Settled s) (zone : Zone) : body zone (splitLines s) = (s, ⟨0, 0⟩) := by
  rw [body_of_normal h.toNormal, booleanValues_eq_self h.no_boolean_place,
    collapseDoubledQuotes_eq_self h.no_doubled_quote]

/-- The kept lines of a dump that is given by its lines. -/
theorem insertLines_joinLines {lines : List (List Char)} (hlf : ∀ line ∈ lines, '\n' ∉ line) (hne : lines ≠ []) :
    insertLines (joinLines lines) = lines.filter fun line => Kept line := by
  rw [insertLines_eq, splitLines_joinLines hlf hne]

end SqlDump.DataOnly

namespace SqlDump

open Text Time

/-- Both conversions keep what is settled. Behind its preamble a settled dump comes out as it is. If the kept lines of
a dump are settled, they come out as they are, whatever lines stand between them, and no epoch value is counted. -/
theorem conversions_keep_settled :
    (∀ dump, Schema.Settled dump → Schema.convert dump = Schema.preamble ++ dump) ∧
      ∀ (zone : Zone) (generatedAt : Stamp) (dump lines : List (List Char)), (∀ line ∈ dump, '\n' ∉ line) →
        (dump.filter fun line => DataOnly.Kept line) = lines → lines ≠ [] → DataOnly.Settled (joinLines lines) →
        DataOnly.convert zone generatedAt (joinLines dump) =
          some ⟨DataOnly.header generatedAt ++ joinLines lines ++ DataOnly.footer, ⟨lines.length, ⟨0, 0⟩⟩⟩ := by
  constructor
  · intro dump h
    rw [Schema.convert, Schema.body_of_settled h]
  · intro zone generatedAt dump lines hlf hlines hne h
    have hdump : dump ≠ [] := by
      rintro rfl
      exact hne hlines.symm
    have hkept : DataOnly.insertLines (joinLines dump) = lines := by
      rw [DataOnly.insertLines_joinLines hlf hdump, hlines]
    have hlf' : ∀ line ∈ lines, '\n' ∉ line := fun line hline => hlf line (List.mem_filter.1 (hlines ▸ hline)).1
    have hbody := DataOnly.body_of_settled h zone
    rw [splitLines_joinLines hlf' hne] at hbody
    rw [DataOnly.convert_of_ne_nil zone generatedAt (hkept ▸ hne), hkept, hbody, DataOnly.render]

/-- Words that only hold a keyword, keys in other words and a tab are no reason to touch a dump. -/
theorem conversions_keep_settled_contexts :
    Schema.convert "CREATE TABLE \"t\" (\"context\" TEXT, really INTEGER PRIMARY KEY);\n\tTrue PRAGM\n\n".toList =
        Schema.preamble ++
          "CREATE TABLE \"t\" (\"context\" TEXT, really INTEGER PRIMARY KEY);\n\tTrue PRAGM\n\n".toList ∧
      DataOnly.convert .utc ⟨⟨2024, 1, 1⟩, 0, 0, 0⟩ (joinLines
          ["PRAGMA x;".toList, " INSERT INTO \"t\" VALUES(10,' 0,',NULL);".toList, [],
            "INSERT INTO (16094592009999,a1609459200, 0);".toList]) =
        some ⟨DataOnly.header ⟨⟨2024, 1, 1⟩, 0, 0, 0⟩ ++ joinLines
            [" INSERT INTO \"t\" VALUES(10,' 0,',NULL);".toList,
              "INSERT INTO (16094592009999,a1609459200, 0);".toList] ++ DataOnly.footer, ⟨2, ⟨0, 0⟩⟩⟩ := by
  constructor
  · exact conversions_keep_settled.1 _ (by decide +kernel)
  · exact conversions_keep_settled.2 _ _ _ _ (by decide) (by decide) (by decide) (by decide +kernel)

end SqlDump
