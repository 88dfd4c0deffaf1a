import SqlDump.Proofs.Rule.Border
import SqlDump.Proofs.Text.Leftmost
/-!
# Which names come into quotes

Two rules put names into double quotes: the one for `INSERT INTO` and the one for `REFERENCES`. Both
take the leftmost place where a name stands, quote it, and go on behind it. What looks like such a
place but names nothing is passed over, and hides no name behind it.
-/

namespace SqlDump.Rule

open Text

/-! ## Quotes around names -/

theorem putIn_quoted (name : List Char) : PutIn '"' 2 name (quoted name) where
  sublist := (List.sublist_append_left name ['"']).trans (List.sublist_cons_self '"' _)
  length := by simp [quoted]
  count := by simp [quoted]

theorem putIn_target {b : Option Char} {old new rest : List Char} (h : TargetQuoted b old new rest) :
    PutIn '"' 2 old new := by
  obtain ⟨name, -, -, -, rfl, rfl⟩ := h
  exact (PutIn.refl '"' _).append (putIn_quoted name)

theorem putIn_reference {b : Option Char} {old new rest : List Char} (h : ReferenceQuoted b old new rest) :
    PutIn '"' 4 old new := by
  obtain ⟨table, columns, -, -, -, -, rfl, rfl⟩ := h
  have hcolumns : PutIn '"' 2 ('(' :: (columns ++ [')'])) ('(' :: (quoted columns ++ [')'])) :=
    ((PutIn.refl '"' ['(']).append (putIn_quoted columns)).append (PutIn.refl '"' [')'])
  exact (PutIn.refl '"' _).append ((putIn_quoted table).append hcolumns)

/-! ## Table names behind `INSERT INTO` -/

/-- Every bare table name behind `INSERT INTO` comes into one pair of quotes, leftmost first, and
nothing else changes. None is left then, and the words of the text stay. -/
theorem quoteInsertTarget_first (s : List Char) :
    (∀ u old new v, FirstEdit TargetQuoted s u old new v →
        quoteInsertTarget s = u ++ (new ++ quoteInsertTarget v)) ∧
      ((∀ u old new v, ¬ FirstEdit TargetQuoted s u old new v) → quoteInsertTarget s = s) ∧
      PutIn '"' (2 * hitCount insertTarget s) s (quoteInsertTarget s) ∧
      TargetsQuoted (quoteInsertTarget s) ∧
      quoteInsertTarget (quoteInsertTarget s) = quoteInsertTarget s ∧
      words (quoteInsertTarget s) = words s := by
  have htargets : TargetsQuoted (quoteInsertTarget s) := targetsQuoted_iff.2 (no_bare_quoteInsertTarget s)
  refine ⟨?_, ?_, ?_, htargets, ?_, ?_⟩
  · intro u old new v h
    exact h.replaceAll insertTarget_finds insertTarget_hits insertTarget_opens.blind
  · exact replaceAll_of_no_firstEdit insertTarget_finds
  · exact putIn_replaceAll insertTarget_finds putIn_target s
  · exact quoteInsertTarget_of_targetsQuoted htargets
  · exact words_quoteInsertTarget s

/-- The second keyword is half inside the first name. -/
theorem quoteInsertTarget_first_twice :
    FirstEdit TargetQuoted "INSERT INTO INSERT INTO x".toList [] "INSERT INTO INSERT".toList
        "INSERT INTO \"INSERT\"".toList " INTO x".toList ∧
      quoteInsertTarget "INSERT INTO INSERT INTO x".toList = "INSERT INTO \"INSERT\" INTO x".toList := by
  have hbare : ∀ c ∈ "INSERT".toList, inBareName c = true := List.all_eq_true.1 (by decide)
  have hfirst : FirstEdit TargetQuoted "INSERT INTO INSERT INTO x".toList [] "INSERT INTO INSERT".toList
      "INSERT INTO \"INSERT\"".toList " INTO x".toList :=
    ⟨rfl, ⟨"INSERT".toList, by decide, hbare, rfl, rfl, rfl⟩, fun _ _ _ _ _ _ => Nat.zero_le _⟩
  have hnone : ∀ u old new v, ¬ FirstEdit TargetQuoted " INTO x".toList u old new v := by
    rintro u _ _ v ⟨hs, ⟨name, -, -, -, rfl, -⟩, -⟩
    have hin : "INSERT INTO ".toList <:+: " INTO x".toList := ⟨u, name ++ v, by rw [hs]; simp⟩
    exact absurd hin (by decide)
  refine ⟨hfirst, ?_⟩
  rw [(quoteInsertTarget_first _).1 _ _ _ _ hfirst, (quoteInsertTarget_first _).2.1 hnone]
  rfl

/-! ## Tables and columns behind `REFERENCES` -/

/-- A hit that starts in front of a parenthesis has its table up to there, and its columns behind. -/
theorem reference_at_parenthesis {b : Option Char} {a rest : List Char} (ha : '(' ∉ a)
    (h : reference b (a ++ '(' :: rest) ≠ none) :
    ∃ table columns v, a = "REFERENCES ".toList ++ table ∧ table ≠ [] ∧ rest = columns ++ ')' :: v ∧
      columns ≠ [] ∧ ')' ∉ columns := by
  obtain ⟨_, _, v, hs, table, columns, htable, hopen, hcolumns, hclose, rfl, -⟩ := reference_finds.exists_edit h
  have hfront : '(' ∉ "REFERENCES ".toList ++ table := by
    rw [List.mem_append, not_or]
    exact ⟨by decide, hopen⟩
  have hparts : a ++ '(' :: rest = ("REFERENCES ".toList ++ table) ++ '(' :: (columns ++ ')' :: v) := by
    rw [hs]
    simp
  obtain ⟨hfront, -, hrest⟩ := append_cons_inj_of_class (ne_of_not_mem ha) (ne_of_not_mem hfront)
    (bne_self_eq_false '(') (bne_self_eq_false '(') hparts
  exact ⟨table, columns, v, hfront, htable, hrest, hcolumns, hclose⟩

/-- Without a table there is no reference. -/
theorem quoteReferences_no_table (s : List Char) :
    quoteReferences ("REFERENCES (".toList ++ s) = "REFERENCES (".toList ++ quoteReferences s := by
  apply reference_opens.replaceAll_kept
  intro y hy hne
  by_contra hhit
  obtain ⟨a, rfl, ha⟩ := (List.suffix_concat_iff.1 (show y <:+ "REFERENCES ".toList ++ ['('] from hy)).resolve_left hne
  have hopen : '(' ∉ a := fun h => absurd (ha.subset h) (by decide)
  rw [List.append_assoc, List.singleton_append] at hhit
  obtain ⟨table, -, -, rfl, htable, -⟩ := reference_at_parenthesis hopen hhit
  have hle := ha.length_le
  have hpos := List.length_pos_iff.2 htable
  rw [List.length_append] at hle
  omega

/-- Without columns there is no reference. -/
theorem quoteReferences_no_columns {table : List Char} (htable : '(' ∉ table) (s : List Char) :
    quoteReferences ("REFERENCES ".toList ++ (table ++ ("()".toList ++ s))) =
      "REFERENCES ".toList ++ (table ++ ("()".toList ++ quoteReferences s)) := by
  have hkept : quoteReferences ((("REFERENCES ".toList ++ table) ++ ['('] ++ [')']) ++ s) =
      ("REFERENCES ".toList ++ table) ++ ['('] ++ [')'] ++ quoteReferences s := by
    apply reference_opens.replaceAll_kept
    intro y hy hne
    by_contra hhit
    obtain ⟨x, rfl, hx⟩ := (List.suffix_concat_iff.1 hy).resolve_left hne
    rcases List.suffix_concat_iff.1 hx with rfl | ⟨a, rfl, ha⟩
    · -- only the closing parenthesis is left
      exact hhit (reference_opens.declines fun h => absurd (List.cons_prefix_cons.1 h).1 (by decide))
    · have hopen : '(' ∉ a := by
        intro h
        rcases List.mem_append.1 (ha.subset h) with h | h
        · exact absurd h (by decide)
        · exact htable h
      rw [List.append_assoc, List.append_assoc, List.singleton_append, List.singleton_append] at hhit
      obtain ⟨-, columns, v, -, -, hrest, hcolumns, hclose⟩ := reference_at_parenthesis hopen hhit
      obtain ⟨c, columns, rfl⟩ := List.exists_cons_of_ne_nil hcolumns
      obtain ⟨rfl, -⟩ := List.cons.inj hrest
      exact hclose List.mem_cons_self
  simpa using hkept

/-- Table and columns of every `REFERENCES` come into quotes, leftmost first, and nothing else changes.
An occurrence without a table or without columns is kept, and the text behind it is rewritten. -/
theorem quoteReferences_first (s : List Char) :
    (∀ u old new v, FirstEdit ReferenceQuoted s u old new v →
        quoteReferences s = u ++ (new ++ quoteReferences v)) ∧
      ((∀ u old new v, ¬ FirstEdit ReferenceQuoted s u old new v) → quoteReferences s = s) ∧
      PutIn '"' (4 * hitCount reference s) s (quoteReferences s) ∧
      quoteReferences ("REFERENCES (".toList ++ s) = "REFERENCES (".toList ++ quoteReferences s ∧
      ∀ table, '(' ∉ table → quoteReferences ("REFERENCES ".toList ++ (table ++ ("()".toList ++ s))) =
        "REFERENCES ".toList ++ (table ++ ("()".toList ++ quoteReferences s)) := by
  refine ⟨?_, ?_, ?_, ?_, ?_⟩
  · intro u old new v h
    exact h.replaceAll reference_finds reference_hits reference_opens.blind
  · exact replaceAll_of_no_firstEdit reference_finds
  · exact putIn_replaceAll reference_finds putIn_reference s
  · exact quoteReferences_no_table s
  · intro table htable
    exact quoteReferences_no_columns htable s

/-- A reference without columns does not hide the one behind it. -/
theorem quoteReferences_first_behind :
    '(' ∉ "x".toList ∧
      FirstEdit ReferenceQuoted "REFERENCES t(a)".toList [] "REFERENCES t(a)".toList
        "REFERENCES \"t\"(\"a\")".toList [] ∧
      quoteReferences "REFERENCES x()REFERENCES t(a)".toList =
        "REFERENCES x()REFERENCES \"t\"(\"a\")".toList := by
  have htable : '(' ∉ "x".toList := by decide
  have hfirst : FirstEdit ReferenceQuoted "REFERENCES t(a)".toList [] "REFERENCES t(a)".toList
      "REFERENCES \"t\"(\"a\")".toList [] :=
    ⟨rfl, ⟨"t".toList, "a".toList, by decide, by decide, by decide, by decide, rfl, rfl⟩,
      fun _ _ _ _ _ _ => Nat.zero_le _⟩
  have hnone : ∀ u old new v, ¬ FirstEdit ReferenceQuoted [] u old new v := by
    rintro u _ _ v ⟨hs, ⟨table, columns, -, -, -, -, rfl, -⟩, -⟩
    simp at hs
  have hskip := (quoteReferences_first "REFERENCES t(a)".toList).2.2.2.2 "x".toList htable
  rw [(quoteReferences_first _).1 _ _ _ _ hfirst, (quoteReferences_first []).2.1 hnone] at hskip
  exact ⟨htable, hfirst, hskip⟩

end SqlDump.Rule
