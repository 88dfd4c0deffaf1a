import SqlDump.Proofs.Rule.BlankLines
import SqlDump.Proofs.Rule.Casing
import SqlDump.Proofs.Rule.Quoting
import SqlDump.Proofs.Rule.Value
import SqlDump.Schema
/-!
# The normal form of a converted dump

A rule that leaves none of its hits behind makes a promise, and no later rule may break it. `Normal`
lists what then holds of the converted dump. There is a section for each of these promises, which
follows it through the rules behind the one that makes it.
-/

namespace SqlDump.Schema

open Rule Text

/-- What the rules promise of a converted dump, all at once. -/
structure Normal (s : List Char) : Prop where
  targets_quoted : TargetsQuoted s
  no_leading_null : ¬ "VALUES(NULL,".toList <:+: s
  no_wrapped_default : ¬ "DEFAULT (CURRENT_TIMESTAMP)".toList <:+: s
  no_counting_key : NoKeyPhrase s
  types_upcased : ∀ name ∈ typeNames, Upcased name s
  truth_upcased : "true".toList ∉ words s ∧ "false".toList ∉ words s
  blank_lines_bare : BlankLinesBare s

theorem body_eq (dump : List Char) :
    body dump = collapseBlankLines (quoteReferences (defaultLeadingNull (quoteInsertTarget
      (upcaseBooleans (plainDefaultTime (serialKeys (upcaseTypes (quoteBackticked
        (stripPragmas dump))))))))) := by
  unfold body
  iterate 10 rw [List.foldl_cons]
  rw [List.foldl_nil]

/-! ## The last two rules -/

end SqlDump.Schema
