import SqlDump.Proofs.Rule.BlankRuns
import SqlDump.Proofs.Text.Leftmost
/-!
# Texts that a rule keeps

Most rules leave nothing behind of what they look for, so that a text is kept if and only if it holds nothing of the
kind (`serialKeys_eq_self_iff` and the like). Such a condition can then be tested by running the rule. The other
rules keep at least each text without what their hits open with.
-/

namespace SqlDump.Text

/-- Steps that change nothing, one after another, change nothing. -/
theorem foldl_eq_self {α β : Type} {step : β → α → β} {s : β} {steps : List α}
    (h : ∀ a ∈ steps, step s a = s) : steps.foldl step s = s := by
  induction steps with
  | nil => rfl
  | cons a steps ih =>
    obtain ⟨ha, hsteps⟩ := List.forall_mem_cons.1 h
    rw [List.foldl_cons, ha, ih hsteps]

end SqlDump.Text

namespace SqlDump.Rule

open Text

variable {s : List Char}

/-! ## Rules with a keyword -/

theorem stripPragmas_of_no_keyword (h : ¬ "PRAGMA".toList <:+: s) : stripPragmas s = s :=
  pragma_opens.replaceAll_eq_self h

theorem quoteReferences_of_no_keyword (h : ¬ "REFERENCES ".toList <:+: s) : quoteReferences s = s :=
  reference_opens.replaceAll_eq_self h

theorem quoteInsertTarget_eq_self_iff : quoteInsertTarget s = s ↔ TargetsQuoted s := by
  constructor
  · intro h
    rw [targetsQuoted_iff, ← h]
    exact no_bare_quoteInsertTarget s
  · exact quoteInsertTarget_of_targetsQuoted

instance : DecidablePred TargetsQuoted := fun _ => decidable_of_iff _ quoteInsertTarget_eq_self_iff

/-! ## Fixed texts -/

theorem plainDefaultTime_eq_self_iff :
    plainDefaultTime s = s ↔ ¬ "DEFAULT (CURRENT_TIMESTAMP)".toList <:+: s := by
  constructor
  · intro h
    rw [← h]
    exact not_infix_plainDefaultTime s
  · exact plainDefaultTime_eq_self

theorem defaultLeadingNull_eq_self_iff : defaultLeadingNull s = s ↔ ¬ "VALUES(NULL,".toList <:+: s := by
  constructor
  · intro h
    rw [← h]
    exact not_infix_defaultLeadingNull s
  · exact defaultLeadingNull_eq_self

/-- Where no digit is at the place of a truth value, each of the passes keeps the text for the next one. -/
theorem booleanValues_eq_self (h : ∀ place ∈ booleanPlaces, ¬ place.1.toList <:+: s) : booleanValues s = s := by
  have hne : ∀ place ∈ booleanPlaces, place.1.toList ≠ [] := by decide
  exact foldl_eq_self fun place hplace => (literal_opens _ (hne place hplace)).replaceAll_eq_self (h place hplace)

/-! ## Words and phrases -/

theorem upcaseTypes_eq_self_iff : upcaseTypes s = s ↔ ∀ name ∈ typeNames, Upcased name s := by
  constructor
  · intro h name hname
    rw [← h]
    exact upcased_upcaseTypes hname s
  · intro h
    rw [upcaseTypes_eq]
    refine mapWords_upcaseIf_eq_self fun w hw hnamed => ?_
    obtain ⟨name, hname, hlower⟩ := List.any_eq_true.1 hnamed
    have hlower : w.map Char.toLower = name.toList := eq_of_beq hlower
    rw [map_toUpper_of_map_toLower hlower, h name hname w hw ((map_foldCase_eq_typeName hname w).2 hlower)]

theorem upcaseBooleans_eq_self_iff :
    upcaseBooleans s = s ↔ "true".toList ∉ words s ∧ "false".toList ∉ words s := by
  constructor
  · intro h
    have hwords : ∀ w ∈ words s, w ≠ "true".toList ∧ w ≠ "false".toList := by
      intro w hw
      rw [← h] at hw
      rcases mem_words_upcaseBooleans s w hw with ⟨-, hne⟩ | rfl | rfl
      · exact hne
      · decide
      · decide
    exact ⟨fun hw => (hwords _ hw).1 rfl, fun hw => (hwords _ hw).2 rfl⟩
  · rintro ⟨htrue, hfalse⟩
    rw [upcaseBooleans_eq]
    refine mapWords_upcaseIf_eq_self fun w hw hvalue => ?_
    simp only [isTruthValue, Bool.or_eq_true, beq_iff_eq] at hvalue
    rcases hvalue with rfl | rfl
    · exact absurd hw hfalse
    · exact absurd hw htrue

theorem serialKeys_eq_self_iff : serialKeys s = s ↔ NoKeyPhrase s := by
  constructor
  · intro h
    rw [← h]
    exact noKeyPhrase_serialKeys s
  · intro h
    refine replaceAll_of_no_firstEdit (wholeWord_finds _ (by decide)) fun u old new v hfirst => ?_
    obtain ⟨hu, hold, hv, -⟩ := hfirst.edit
    exact h old hold ⟨u, v, hfirst.parts, hu, hv⟩

/-! ## Blank lines -/

theorem collapseBlankLines_eq_self_iff : collapseBlankLines s = s ↔ BlankLinesBare s := by
  constructor
  · intro h
    rw [← h]
    exact blankLinesBare_collapseBlankLines s
  · exact collapseBlankLines_of_bare

end SqlDump.Rule
