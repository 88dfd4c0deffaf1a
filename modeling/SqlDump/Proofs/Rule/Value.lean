import SqlDump.Proofs.Text.Lines
import SqlDump.Proofs.Text.WordPattern
import SqlDump.Rule.Value
/-!
# What the value rules change

Each of these rules replaces one fixed text by another that begins and ends alike, so that only its
middle changes (`Between`). That a rule leaves none of its texts behind is a fact about the two
texts alone: they must not overlap (`not_infix_replaceAll_literal`). For `,0,` and `,1,` they do, and
those indeed stay behind in `,0,0,`.
-/

namespace SqlDump.Rule

open Text

/-! ## Fixed texts -/

theorem literal_foreign {f sought written : List Char} (hw : written ≠ []) (hno : NoOverlap f written) :
    Foreign (fun _ old new _ => old = sought ∧ new = written) Anything f Anything :=
  .of_written_anything (fun e => e.2) hw hno

/-- A fixed text that cannot overlap with what is written for it is gone afterwards. -/
theorem not_infix_replaceAll_literal {sought written : List Char} (hs : sought ≠ [])
    (hw : written ≠ []) (hno : NoOverlap sought written) (s : List Char) :
    ¬ sought <:+: replaceAll (literal sought written) s := by
  rw [← occurs_anything_iff]
  refine (edits_replaceAll (literal_finds written hs) s).not_occurs hs (literal_foreign hw hno) ?_
  intro b v _ _ hk
  simp [Pattern.Declines, literal] at hk

theorem not_infix_literal_of_source {f sought written s : List Char} (hf : f ≠ [])
    (hs : sought ≠ []) (hw : written ≠ []) (hno : NoOverlap f written) (h : ¬ f <:+: s) :
    ¬ f <:+: replaceAll (literal sought written) s :=
  (edits_replaceAll (literal_finds written hs) s).not_infix_result hf (literal_foreign hw hno) h

/-- The middle of a fixed text is written anew, between its front and its back. -/
def Between (front old new back : List Char) : EditAt := fun before o n rest =>
  o = old ∧ n = new ∧ before = front.getLast? ∧ back <+: rest

section Between

variable {front old new back : List Char}

theorem edits_between (hf : front ≠ []) (s : List Char) :
    Edits Freely (Between front old new back) none s
      (replaceAll (literal (front ++ (old ++ back)) (front ++ (new ++ back))) s) := by
  refine (edits_replaceAll (literal_finds _ (by simp [hf])) s).refine (fun _ _ _ => trivial) ?_
  rintro b _ _ s t ⟨rfl, rfl⟩ ht
  simp only [getLast?_append_or] at ht
  simp only [List.append_assoc]
  refine .keepAll front b (.edit ⟨rfl, rfl, getLast?_or_of_ne_nil hf b, ?_⟩ (.keepAll back _ ht))
  exact List.prefix_append back s

theorem between_foreign {Left Right : Beside} {f : List Char} (ho : old ≠ []) (hn : new ≠ [])
    (hno : NoOverlap f new) (hl : Left new.getLast? → Left old.getLast?)
    (hr : Right new.head? → Right old.head?) : Foreign (Between front old new back) Left f Right := by
  refine .of_written (fun e => e.2.1) hn hno ?_ ?_
  · rintro b _ _ s v ⟨rfl, -⟩ _ h
    rw [getLast?_or_of_ne_nil ho]
    exact hl h
  · rintro b _ _ s ⟨rfl, -⟩ _ h
    rw [List.head?_append_of_ne_nil _ ho]
    exact hr h

end Between

/-! ## Column defaults and leading `NULL` -/

theorem edits_plainDefaultTime (s : List Char) :
    Edits Freely (Between "DEFAULT ".toList "(CURRENT_TIMESTAMP)".toList "CURRENT_TIMESTAMP".toList [])
      none s (plainDefaultTime s) :=
  edits_between (by decide) s

theorem not_infix_plainDefaultTime (s : List Char) :
    ¬ "DEFAULT (CURRENT_TIMESTAMP)".toList <:+: plainDefaultTime s :=
  not_infix_replaceAll_literal (by decide) (by decide) (by decide) s

/-- `NULL` gives way to `DEFAULT`. -/
abbrev NullDefaulted : EditAt :=
  Between "VALUES(".toList "NULL".toList "DEFAULT".toList ",".toList

theorem edits_defaultLeadingNull (s : List Char) :
    Edits Freely NullDefaulted none s (defaultLeadingNull s) :=
  edits_between (by decide) s

theorem not_infix_defaultLeadingNull (s : List Char) :
    ¬ "VALUES(NULL,".toList <:+: defaultLeadingNull s :=
  not_infix_replaceAll_literal (by decide) (by decide) (by decide) s

theorem nullDefaulted_wordWise :
    WordWise NullDefaulted fun a b => ∀ w ∈ b, w ∈ a ∨ w = "DEFAULT".toList where
  new_ne := by rintro b _ _ s ⟨rfl, rfl, -, -⟩; decide
  starts := by rintro b _ _ s ⟨rfl, rfl, -, -⟩ _; rfl
  front := by rintro b _ _ s ⟨rfl, rfl, rfl, -⟩ h; exact absurd h (by decide)
  back := by rintro b _ _ s ⟨rfl, rfl, -, x, rfl⟩ h; cases h
  words := by rintro b _ _ s ⟨rfl, rfl, -, -⟩; decide

theorem mem_words_defaultLeadingNull (s : List Char) :
    ∀ w ∈ words (defaultLeadingNull s), w ∈ words s ∨ w = "DEFAULT".toList :=
  Edits.mem_words nullDefaulted_wordWise (edits_defaultLeadingNull s)

/-! ## Truth values -/

/-- A digit `0` or `1` between two delimiters is written as a truth value. -/
def TruthWritten : EditAt := fun before old new rest =>
  (old = ['0'] ∧ new = "FALSE".toList ∨ old = ['1'] ∧ new = "TRUE".toList) ∧
    (before = some ',' ∨ before = some '(') ∧ (rest.head? = some ',' ∨ rest.head? = some ')')

theorem edits_booleanPlace {place : String × String} (hp : place ∈ booleanPlaces) (s : List Char) :
    Edits Freely TruthWritten none s (replaceAll (literal place.1.toList place.2.toList) s) := by
  have hpass : ∀ front back digit value, (front = ',' ∨ front = '(') → (back = ',' ∨ back = ')') →
      (digit = '0' ∧ value = "FALSE".toList ∨ digit = '1' ∧ value = "TRUE".toList) →
      Edits Freely TruthWritten none s
        (replaceAll (literal ([front] ++ ([digit] ++ [back])) ([front] ++ (value ++ [back]))) s) := by
    intro front back digit value hf hb hd
    refine (edits_between (by simp) s).mono (fun _ _ _ => trivial) ?_
    rintro b _ _ rest ⟨rfl, rfl, rfl, x, rfl⟩
    refine ⟨?_, ?_, ?_⟩
    · rcases hd with ⟨rfl, rfl⟩ | ⟨rfl, rfl⟩ <;> simp
    · simpa using hf
    · simpa using hb
  simp only [booleanPlaces, List.mem_cons, List.not_mem_nil, or_false] at hp
  rcases hp with rfl | rfl | rfl | rfl | rfl | rfl
  · exact hpass ',' ',' '0' "FALSE".toList (by simp) (by simp) (by simp)
  · exact hpass ',' ',' '1' "TRUE".toList (by simp) (by simp) (by simp)
  · exact hpass '(' ',' '0' "FALSE".toList (by simp) (by simp) (by simp)
  · exact hpass '(' ',' '1' "TRUE".toList (by simp) (by simp) (by simp)
  · exact hpass ',' ')' '0' "FALSE".toList (by simp) (by simp) (by simp)
  · exact hpass ',' ')' '1' "TRUE".toList (by simp) (by simp) (by simp)

/-- What the writing of truth values keeps, some of the passes keep one after another. -/
theorem foldl_booleanPlaces {P : List Char → Prop}
    (hP : ∀ s t, Edits Freely TruthWritten none s t → P s → P t) (places : List (String × String))
    (hplaces : places ⊆ booleanPlaces) : ∀ s, P s →
    P (places.foldl (fun s place => replaceAll (literal place.1.toList place.2.toList) s) s) := by
  induction places with
  | nil => intro s hs; exact hs
  | cons place places ih =>
    intro s hs
    rw [List.cons_subset] at hplaces
    exact ih hplaces.2 _ (hP s _ (edits_booleanPlace hplaces.1 s) hs)

theorem booleanValues_keeps {P : List Char → Prop}
    (hP : ∀ s t, Edits Freely TruthWritten none s t → P s → P t) {s : List Char} (hs : P s) :
    P (booleanValues s) :=
  foldl_booleanPlaces hP booleanPlaces (fun _ h => h) s hs

theorem truthWritten_foreign {Left Right : Beside} {f : List Char}
    (hno : NoOverlap f "FALSE".toList ∧ NoOverlap f "TRUE".toList)
    (hl : ∀ c d, Left (some c) → Left (some d))
    (hr : ∀ c, c = '0' ∨ c = '1' → Right (some c)) : Foreign TruthWritten Left f Right := by
  refine .of_noOverlap ?_ ?_ ?_ ?_
  · rintro b _ _ s ⟨⟨rfl, rfl⟩ | ⟨rfl, rfl⟩, -, -⟩ <;> decide
  · rintro b _ _ s ⟨⟨rfl, rfl⟩ | ⟨rfl, rfl⟩, -, -⟩
    · exact hno.1
    · exact hno.2
  · rintro b _ _ s v ⟨⟨rfl, rfl⟩ | ⟨rfl, rfl⟩, -, -⟩ _ h
    · exact hl _ _ h
    · exact hl _ _ h
  · rintro b _ _ s ⟨⟨rfl, rfl⟩ | ⟨rfl, rfl⟩, -, -⟩ _ _
    · exact hr '0' (.inl rfl)
    · exact hr '1' (.inr rfl)

theorem truthWritten_wordWise :
    WordWise TruthWritten fun a b => ∀ w ∈ b, w ∈ a ∨ (w = "FALSE".toList ∨ w = "TRUE".toList) where
  new_ne := by rintro b _ _ s ⟨⟨rfl, rfl⟩ | ⟨rfl, rfl⟩, -, -⟩ <;> decide
  starts := by rintro b _ _ s ⟨⟨rfl, rfl⟩ | ⟨rfl, rfl⟩, -, -⟩ _ <;> rfl
  front := by rintro b _ _ s ⟨-, rfl | rfl, -⟩ h <;> exact absurd h (by decide)
  back := by
    rintro b _ _ s ⟨-, -, hs⟩ h
    rcases hs with hs | hs <;> · rw [startsInWord, hs] at h; exact absurd h (by decide)
  words := by rintro b _ _ s ⟨⟨rfl, rfl⟩ | ⟨rfl, rfl⟩, -, -⟩ <;> decide

theorem mem_words_booleanValues (s : List Char) :
    ∀ w ∈ words (booleanValues s), w ∈ words s ∨ (w = "FALSE".toList ∨ w = "TRUE".toList) := by
  refine booleanValues_keeps (P := fun t => ∀ w ∈ words t, w ∈ words s ∨
    (w = "FALSE".toList ∨ w = "TRUE".toList)) ?_ fun w hw => .inl hw
  intro t t' h ht w hw
  exact (Edits.mem_words truthWritten_wordWise h w hw).elim (ht w) .inr

theorem linewise_defaultLeadingNull : Linewise defaultLeadingNull :=
  linewise_literal (by decide) (by decide) (by decide)

theorem linewise_booleanValues : Linewise booleanValues := by
  have hplaces : ∀ place ∈ booleanPlaces, place.1.toList ≠ [] ∧ '\n' ∉ place.1.toList ∧
      '\n' ∉ place.2.toList := by decide
  unfold booleanValues
  generalize booleanPlaces = places at hplaces ⊢
  induction places with
  | nil => exact ⟨rfl, fun _ _ => rfl, id⟩
  | cons place places ih =>
    obtain ⟨hne, hlf, hlf'⟩ := hplaces place (by simp)
    exact (ih fun p hp => hplaces p (by simp [hp])).comp (linewise_literal hne hlf hlf')

/-- A place of a truth value that cannot overlap with what is written for it is gone afterwards: none
of the later passes brings it back. -/
theorem not_infix_booleanValues {place : String × String} (hp : place ∈ booleanPlaces)
    (hno : NoOverlap place.1.toList place.2.toList) (s : List Char) :
    ¬ place.1.toList <:+: booleanValues s := by
  have hplaces : ∀ place ∈ booleanPlaces, place.1.toList ≠ [] ∧ place.2.toList ≠ [] ∧
      NoOverlap place.1.toList "FALSE".toList ∧ NoOverlap place.1.toList "TRUE".toList := by decide
  obtain ⟨hs, hw, hvalues⟩ := hplaces place hp
  obtain ⟨pre, post, hsplit⟩ := List.append_of_mem hp
  have hpost : post ⊆ booleanPlaces := by rw [hsplit]; simp
  unfold booleanValues
  rw [hsplit, List.foldl_append, List.foldl_cons]
  refine foldl_booleanPlaces (P := fun t => ¬ place.1.toList <:+: t) ?_ post hpost _
    (not_infix_replaceAll_literal hs hw hno _)
  intro t t' h ht
  exact h.not_infix_result hs (truthWritten_foreign hvalues (fun _ _ _ => trivial) (fun _ _ => trivial)) ht

end SqlDump.Rule
