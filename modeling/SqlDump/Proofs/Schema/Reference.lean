import SqlDump.Proofs.Rule.Border
import SqlDump.Proofs.Schema.NormalForm
/-!
# Foreign keys

A foreign key names a table and a column behind `REFERENCES`. Backticks around these names change to
double quotes long before the rule for references comes, and that rule quotes whatever it finds. So
names in backticks end up in one pair of quotes more than bare names (`convert_backticked_reference`).
-/

namespace SqlDump.Schema

open Rule Text

/-- A name of letters, digits and underscores. -/
def IsName (name : List Char) : Prop := name ≠ [] ∧ ∀ c ∈ name, c.isAlphanum = true ∨ c = '_'

/-- A table with a column in parentheses. -/
def columnOf (table column : List Char) : List Char := table ++ '(' :: (column ++ [')'])

/-- A reference to a column of a table. -/
def referenceTo (table column : List Char) : List Char := "REFERENCES ".toList ++ columnOf table column

/-- A name as the rules for keywords leave it. -/
def cased (name : List Char) : List Char := upcaseBooleans (upcaseTypes name)

theorem rewritesWords_cased : RewritesWords cased :=
  rewritesWords_upcaseTypes.comp rewritesWords_upcaseBooleans

theorem IsName.isWord {name : List Char} (h : IsName name) : ∀ c ∈ name, isWord c = true := by
  intro c hc
  rcases h.2 c hc with h | rfl
  · exact isWord_of_isAlphanum h
  · decide

/-! ## Names in and out of quotes -/

/-- How a name may be written: bare, or in double quotes. -/
def Spelling (spell : List Char → List Char) : Prop := spell = id ∨ spell = quoted

theorem spell_rewritten {rule spell : List Char → List Char} (h : RewritesWords rule)
    (hs : Spelling spell) (name : List Char) : rule (spell name) = spell (rule name) := by
  rcases hs with rfl | rfl
  · rfl
  · exact h.quoted name

theorem columnOf_rewritten {rule : List Char → List Char} (h : RewritesWords rule)
    (table column : List Char) : rule (columnOf table column) = columnOf (rule table) (rule column) := by
  unfold columnOf
  rw [h.append_cons _ _ (by decide), h.append_cons _ _ (by decide), h.nil]

/-- Words, with nothing between them but double quotes and parentheses. -/
def Plain (s : List Char) : Prop := ∀ c ∈ s, isWord c = true ∨ c ∈ ['"', '(', ')']

theorem Plain.not_mem {s : List Char} (h : Plain s) {c : Char} (hw : isWord c = false)
    (hc : c ∉ ['"', '(', ')']) : c ∉ s := by
  intro hs
  rcases h c hs with h | h
  · rw [hw] at h
    cases h
  · exact hc h

theorem Plain.head_not_blank {s : List Char} (h : Plain s) : s.head?.any isBlank = false := by
  cases s with
  | nil => rfl
  | cons c s =>
    refine Bool.eq_false_iff.2 fun hb => ?_
    have hb : isBlank c = true := hb
    rcases h c (by simp) with hw | hp
    · rw [isWord_of_isBlank hb] at hw
      cases hw
    · simp only [List.mem_cons, List.not_mem_nil, or_false] at hp
      rcases hp with rfl | rfl | rfl <;> exact absurd hb (by decide)

theorem not_mem_spelled {spell : List Char → List Char} (hs : Spelling spell) {name : List Char}
    (hname : name ≠ [] ∧ ∀ c ∈ name, isWord c = true) {c : Char} (hc : isWord c = false) (hquote : c ≠ '"') :
    spell name ≠ [] ∧ c ∉ spell name := by
  have hcn : c ∉ name := fun h => Bool.eq_false_iff.1 hc (hname.2 c h)
  rcases hs with rfl | rfl
  · exact ⟨hname.1, hcn⟩
  · simp [quoted, hcn, hquote]

theorem plain_columnOf {spell : List Char → List Char} (hs : Spelling spell) {table column : List Char}
    (htable : ∀ c ∈ table, isWord c = true) (hcolumn : ∀ c ∈ column, isWord c = true) :
    Plain (columnOf (spell table) (spell column)) := by
  have hname : ∀ name : List Char, (∀ c ∈ name, isWord c = true) → Plain (spell name) := by
    intro name hname c hc
    rcases hs with rfl | rfl
    · exact .inl (hname c hc)
    · simp only [quoted, List.mem_cons, List.mem_append, List.not_mem_nil, or_false] at hc
      rcases hc with rfl | hc | rfl
      · simp
      · exact .inl (hname c hc)
      · simp
  intro c hc
  simp only [columnOf, List.mem_append, List.mem_cons, List.not_mem_nil, or_false] at hc
  rcases hc with hc | rfl | hc | rfl
  · exact hname table htable c hc
  · simp
  · exact hname column hcolumn c hc
  · simp

theorem Plain.rewritten {rule : List Char → List Char} (h : RewritesWords rule) {s : List Char}
    (hs : Plain s) : Plain (rule s) := by
  induction s using word_induction with
  | word w hw => exact fun c hc => .inl ((h.word hw).1 c hc)
  | cons w c s hw hc ih =>
    rw [h.append_cons w s hc]
    intro d hd
    simp only [List.mem_append, List.mem_cons] at hd
    rcases hd with hd | rfl | hd
    · exact .inl ((h.word hw).1 d hd)
    · exact hs d (by simp)
    · exact ih (fun e he => hs e (by simp [he])) d hd

/-- Behind a blank, words without a further blank hold no text with a blank inside. -/
theorem Plain.not_infix_blank {f s : List Char} (hs : Plain s) (hf : ' ' ∈ f) (hhead : f.head? ≠ some ' ') :
    ¬ f <:+: ' ' :: s := by
  intro h
  rcases List.infix_cons_iff.1 h with h | h
  · cases f with
    | nil => cases hf
    | cons c f =>
      obtain ⟨rfl, -⟩ := List.cons_prefix_cons.1 h
      exact hhead rfl
  · exact hs.not_mem (c := ' ') (by decide) (by decide) (h.subset hf)

/-! ## The rules before the one for references -/

/-- What the rules from the one for type names up to the one for leading `NULL` make of a text. -/
def beforeReferences (s : List Char) : List Char :=
  defaultLeadingNull (quoteInsertTarget (upcaseBooleans (plainDefaultTime (serialKeys (upcaseTypes s)))))

theorem body_eq_finish (dump : List Char) : body dump = collapseBlankLines (quoteReferences
    (beforeReferences (quoteBackticked (stripPragmas dump)))) :=
  body_eq dump

/-- The keyword of a reference, without the blank behind it. -/
def keyword : List Char := "REFERENCES".toList

/-- The text ends with the keyword of a reference and with `mark`, and before that no reference
starts. -/
structure AtReference (mark s : List Char) : Prop where
  ends : keyword ++ mark <:+ s
  first : ¬ "REFERENCES ".toList <:+: s

namespace AtReference

variable {mark s x : List Char}

theorem of_edits {Keep : KeepAt} {Edit : EditAt} {t : List Char} (h : AtReference mark s)
    (he : Edits Keep Edit none s t)
    (hold : ∀ {b old new v}, Edit b old new v → old ≠ [] ∧ NoOverlap old (keyword ++ mark))
    (hnew : Foreign Edit Anything "REFERENCES ".toList Anything) : AtReference mark t where
  ends := he.suffix h.ends hold
  first := he.not_infix_result (by decide) hnew h.first

theorem rewritten {rule : List Char → List Char} (hr : RewritesWords rule) (h : AtReference [] s) :
    AtReference [] (rule s) where
  ends := by
    have hends := h.ends
    rw [List.append_nil] at hends ⊢
    exact hr.suffix (List.all_eq_true.1 (by decide)) (by decide) hends
  first := by
    have hword : ∀ c ∈ keyword, isWord c = true := List.all_eq_true.1 (by decide)
    intro ht
    exact h.first (hr.infix_source (d := ' ') hword (by decide) (by decide) ht)

theorem serialKeys (h : AtReference [] s) : AtReference [] (serialKeys s) := by
  refine h.of_edits (edits_replaceAll (wholeWord_finds _ (by decide)) s) ?_ ?_
  · rintro b old new v ⟨-, hold, -, -⟩
    constructor
    · rintro rfl
      exact absurd hold (by decide)
    · apply NoOverlap.of_map foldCase
      rw [hold]
      decide
  · exact .of_written_anything (fun e => e.2.2.2) (by decide) (by decide)

theorem literal {sought written : List Char} (hne : sought ≠ [] ∧ written ≠ [])
    (hno : NoOverlap sought (keyword ++ mark) ∧ NoOverlap "REFERENCES ".toList written)
    (h : AtReference mark s) : AtReference mark (replaceAll (literal sought written) s) := by
  refine h.of_edits (edits_replaceAll (literal_finds written hne.1) s) ?_ (literal_foreign hne.2 hno.2)
  rintro b old new v ⟨rfl, -⟩
  exact ⟨hne.1, hno.1⟩

theorem plainDefaultTime (h : AtReference [] s) : AtReference [] (plainDefaultTime s) :=
  h.literal (by decide) (by decide)

theorem defaultLeadingNull (hmark : mark = [] ∨ mark = ['"']) (h : AtReference mark s) :
    AtReference mark (defaultLeadingNull s) := by
  rcases hmark with rfl | rfl
  · exact h.literal (by decide) (by decide)
  · exact h.literal (by decide) (by decide)

/-- The keyword may be taken for the end of a bare table name, and then a quote is put behind it. -/
theorem quoteInsertTarget (h : AtReference [] s) :
    ∃ mark, (mark = [] ∨ mark = ['"']) ∧ AtReference mark (quoteInsertTarget s) ∧
      (¬ "INSERT INTO ".toList <:+: s → mark = []) := by
  have hfirst : ¬ "REFERENCES ".toList <:+: Rule.quoteInsertTarget s :=
    (edits_quoteInsertTarget s).not_infix_result (by decide) (quoteAdded_foreign_anything (by decide)) h.first
  by_cases hin : "INSERT INTO ".toList <:+: s
  case neg =>
    rw [quoteInsertTarget_eq_self hin] at hfirst ⊢
    exact ⟨[], .inl rfl, h, fun _ => rfl⟩
  case pos =>
    have hends : keyword <:+ s := by simpa using h.ends
    have hblank : ' ' ∉ keyword := by decide
    have hno : ∀ b old new v, old ++ v <:+ keyword → ¬ TargetQuoted b old new v := by
      rintro b old new v hv ⟨name, -, -, -, rfl, -⟩
      exact hblank (hv.subset (by simp))
    rcases (edits_replaceAll insertTarget_finds s).suffix_cases hends hno with
      hk | ⟨b, old, new, x, v, e, hx, hxo, hk, ht⟩
    · exact ⟨[], .inl rfl, ⟨by rwa [List.append_nil], hfirst⟩, fun h => absurd hin h⟩
    · obtain ⟨name, hne, hname, hstop, rfl, rfl⟩ := e
      -- no character of the keyword stops a name
      have hv : v = [] := by
        have hbare : ∀ c ∈ keyword, inBareName c = true := List.all_eq_true.1 (by decide)
        cases v with
        | nil => rfl
        | cons c v =>
          have hc := hbare c (by rw [hk]; simp)
          simp [hc] at hstop
      subst hv
      rw [List.append_nil] at hk ht
      subst hk
      have hkn : keyword <:+ name := by
        rcases List.suffix_or_suffix_of_suffix hxo (List.suffix_append _ name) with hs | ⟨w, hw⟩
        · exact hs
        · obtain ⟨y, hy⟩ := hxo
          rw [← hw, ← List.append_assoc, List.append_left_inj] at hy
          rcases List.eq_nil_or_concat w with rfl | ⟨w, d, rfl⟩
          · exact ⟨[], by simpa using hw.symm⟩
          · have hd : d = ' ' := by
              have := congrArg List.getLast? hy
              simpa [List.concat_eq_append] using this
            exact absurd (hw ▸ by simp [hd]) hblank
      obtain ⟨w, rfl⟩ := hkn
      refine ⟨['"'], .inr rfl, ⟨List.IsSuffix.trans ?_ ht, hfirst⟩, fun h => absurd hin h⟩
      exact ⟨"INSERT INTO ".toList ++ '"' :: w, by simp [quoted]⟩

theorem apart {f : List Char} (h : AtReference mark s) (hno : NoMeet (keyword ++ mark) f)
    (hin : ¬ keyword ++ mark <:+: f) (t : List Char) : Apart f s t := by
  obtain ⟨u, rfl⟩ := h.ends
  exact .of_left hno hin u t

end AtReference

/-- The rules before the one for table names bring no `INSERT INTO` about. -/
theorem not_insert_upcaseBooleans {s : List Char} (h : ¬ "INSERT INTO ".toList <:+: s) :
    ¬ "INSERT INTO ".toList <:+: upcaseBooleans (plainDefaultTime (serialKeys (upcaseTypes s))) := by
  have hne : "INSERT INTO ".toList ≠ [] := by decide
  refine not_infix_upcaseBooleans hne (by decide)
    (not_infix_literal_of_source hne (by decide) (by decide) (by decide) ?_)
  refine (edits_replaceAll (wholeWord_finds _ (by decide)) _).not_infix_result hne
    (.of_written_anything (fun e => e.2.2.2) (by decide) (by decide)) ?_
  exact not_infix_upcaseTypes hne (by decide) h

theorem serialKeys_append_plain {s x : List Char} (h : AtReference [] s) (hx : Plain x) :
    serialKeys (s ++ ' ' :: x) = serialKeys s ++ ' ' :: x := by
  have hx0 : x.count ' ' = 0 := List.count_eq_zero.2 (hx.not_mem (by decide) (by decide))
  rw [serialKeys_append ?_ rfl, serialKeys_eq_self (s := ' ' :: x) (by simp [hx0])]
  obtain ⟨u, rfl⟩ := h.ends
  rw [List.map_append]
  exact .of_left (by decide) (by decide) _ _

/-- The keyword stays up to the rule for references, and so does what follows it behind a blank. -/
theorem beforeReferences_append {s : List Char} (h : AtReference [] s) :
    ∃ mark, (mark = [] ∨ mark = ['"']) ∧ AtReference mark (beforeReferences s) ∧
      (¬ "INSERT INTO ".toList <:+: s → mark = []) ∧
      ∀ {x}, Plain x → beforeReferences (s ++ ' ' :: x) = beforeReferences s ++ ' ' :: cased x := by
  have h1 := h.rewritten rewritesWords_upcaseTypes
  have h2 := h1.serialKeys
  have h3 := h2.plainDefaultTime
  have h4 := h3.rewritten rewritesWords_upcaseBooleans
  obtain ⟨mark, hmark, h5, hbare⟩ := h4.quoteInsertTarget
  refine ⟨mark, hmark, h5.defaultLeadingNull hmark, fun hin => hbare (not_insert_upcaseBooleans hin), ?_⟩
  intro x hx
  have hblank : isWord ' ' = false := by decide
  have hx1 := hx.rewritten rewritesWords_upcaseTypes
  have hx4 : Plain (cased x) := hx1.rewritten rewritesWords_upcaseBooleans
  have hcomma : ',' ∉ ' ' :: cased x := by
    rw [List.mem_cons, not_or]
    exact ⟨by decide, hx4.not_mem (by decide) (by decide)⟩
  have hnull : Apart "VALUES(NULL,".toList (quoteInsertTarget (upcaseBooleans (plainDefaultTime
      (serialKeys (upcaseTypes s))))) (' ' :: cased x) := by
    rcases hmark with rfl | rfl
    · exact h5.apart (by decide) (by decide) _
    · exact h5.apart (by decide) (by decide) _
  unfold beforeReferences
  rw [rewritesWords_upcaseTypes.append_cons _ _ hblank, serialKeys_append_plain h1 hx1,
    plainDefaultTime_append (h2.apart (by decide) (by decide) _),
    plainDefaultTime_eq_self (s := ' ' :: upcaseTypes x) (hx1.not_infix_blank (by decide) (by decide)),
    rewritesWords_upcaseBooleans.append_cons _ _ hblank,
    show upcaseBooleans (upcaseTypes x) = cased x from rfl,
    quoteInsertTarget_append (h4.apart (by decide) (by decide) _) rfl,
    quoteInsertTarget_eq_self (s := ' ' :: cased x) (hx4.not_infix_blank (by decide) (by decide)),
    defaultLeadingNull_append hnull, defaultLeadingNull_eq_self fun hin => hcomma (hin.subset (by decide))]

/-! ## The rule for references -/

/-- A reference is found with its names, and each of them is put in quotes. -/
theorem quoteReferences_reference {table column : List Char} (ht : table ≠ [] ∧ '(' ∉ table)
    (hc : column ≠ [] ∧ ')' ∉ column) (x : List Char) :
    quoteReferences (referenceTo table column ++ x) =
      referenceTo (quoted table) (quoted column) ++ quoteReferences x := by
  refine reference_opens.replaceAll_hit (List.append_ne_nil_of_left_ne_nil (by decide) _) ?_
  exact reference_hits ⟨table, column, ht.1, ht.2, hc.1, hc.2, rfl, rfl⟩

theorem referenceTo_eq (table column : List Char) :
    referenceTo table column = keyword ++ ' ' :: columnOf table column := by
  have hk : "REFERENCES ".toList = keyword ++ [' '] := rfl
  unfold referenceTo
  rw [hk, List.append_assoc, List.singleton_append]

/-- A front that ends with the keyword decides how the names behind it are spelled in the end. -/
theorem finish_append {mark s : List Char} (hmark : mark = [] ∨ mark = ['"']) (h : AtReference mark s) :
    ∃ front spell, Spelling spell ∧ (mark = [] → spell = quoted) ∧ ∀ {table column : List Char},
      table ≠ [] ∧ '(' ∉ table → column ≠ [] ∧ ')' ∉ column → Plain (columnOf table column) →
      collapseBlankLines (quoteReferences (s ++ ' ' :: columnOf table column)) =
        front ++ columnOf (spell table) (spell column) := by
  have hline : ∀ {x : List Char}, Plain x → '\n' ∉ x := fun hx => hx.not_mem (by decide) (by decide)
  have hends := h.ends
  rcases hmark with rfl | rfl
  · -- the keyword is followed by its blank, and the reference is found
    rw [List.append_nil] at hends
    obtain ⟨u, rfl⟩ := hends
    refine ⟨collapseBlankLines u ++ "REFERENCES ".toList, quoted, .inr rfl, fun _ => rfl, ?_⟩
    intro table column ht hc hx
    have hfirst : ¬ "REFERENCES ".toList <:+: u := fun hin =>
      h.first (hin.trans (List.prefix_append u keyword).isInfix)
    have hapart : Apart "REFERENCES ".toList u (referenceTo table column) :=
      .of_right (by decide) u _
    have hreference : quoteReferences (referenceTo table column) =
        referenceTo (quoted table) (quoted column) := by
      have := quoteReferences_reference ht hc []
      rwa [List.append_nil, show quoteReferences [] = [] from rfl, List.append_nil] at this
    have hlf : '\n' ∉ referenceTo (quoted table) (quoted column) := by
      have hnames := hline hx
      simp only [columnOf, List.mem_append, List.mem_cons, not_or] at hnames
      unfold referenceTo
      simp only [columnOf, quoted, List.mem_append, List.mem_cons, not_or]
      simp [hnames.1, hnames.2.2.1]
    calc collapseBlankLines (quoteReferences (u ++ keyword ++ ' ' :: columnOf table column))
        = collapseBlankLines (quoteReferences (u ++ referenceTo table column)) := by
          rw [referenceTo_eq, List.append_assoc]
      _ = collapseBlankLines (u ++ referenceTo (quoted table) (quoted column)) := by
          unfold quoteReferences at hreference ⊢
          rw [reference_opens.replaceAll_append hfirst hapart, hreference]
      _ = collapseBlankLines u ++ referenceTo (quoted table) (quoted column) := by
          rw [collapseBlankLines_append (by unfold referenceTo; rfl), collapseBlankLines_eq_self hlf]
      _ = collapseBlankLines u ++ "REFERENCES ".toList ++ columnOf (quoted table) (quoted column) := by
          rw [List.append_assoc]
          rfl
  · -- a quote has come between the keyword and the blank
    refine ⟨collapseBlankLines (s ++ [' ']), id, .inl rfl, fun h => absurd h (by simp), ?_⟩
    intro table column _ _ hx
    have hnone : ¬ "REFERENCES ".toList <:+: ' ' :: columnOf table column :=
      hx.not_infix_blank (by decide) (by decide)
    have hapart : Apart "REFERENCES ".toList s (' ' :: columnOf table column) :=
      h.apart (by decide) (by decide) _
    calc collapseBlankLines (quoteReferences (s ++ ' ' :: columnOf table column))
        = collapseBlankLines (s ++ ' ' :: columnOf table column) := by
          unfold quoteReferences
          rw [reference_opens.replaceAll_append h.first hapart, reference_opens.replaceAll_eq_self hnone]
      _ = collapseBlankLines (s ++ [' ']) ++ columnOf table column := by
          rw [List.append_cons, collapseBlankLines_append hx.head_not_blank,
            collapseBlankLines_eq_self (hline hx)]

/-! ## Names in backticks and bare names -/

theorem atReference_append_keyword {u : List Char} (hu : ¬ keyword <:+: u) : AtReference [] (u ++ keyword) where
  ends := by
    rw [List.append_nil]
    exact List.suffix_append u keyword
  first h := by
    have hin : keyword ++ [' '] <:+: u := infix_of_last_not_mem (by decide) h
    exact hu ((List.prefix_append keyword [' ']).isInfix.trans hin)

theorem quoteBackticked_columnOf {table column : List Char} (ht : table ≠ [] ∧ '\x60' ∉ table)
    (hc : column ≠ [] ∧ '\x60' ∉ column) :
    quoteBackticked (columnOf (inBackticks table) (inBackticks column)) =
      columnOf (quoted table) (quoted column) := by
  have hopen : '\x60' ∉ ['('] := by decide
  have hclose : '\x60' ∉ [')'] := by decide
  unfold columnOf
  rw [quoteBackticked_name ht.1 ht.2, ← List.singleton_append, quoteBackticked_append hopen,
    quoteBackticked_name hc.1 hc.2, quoteBackticked_eq_self hclose]
  rfl

/-- Up to the rule for references. -/
theorem body_append {u x : List Char} (hu : '\x60' ∉ u ∧ ¬ "PRAGMA".toList <:+: u) (hx : ';' ∉ x) :
    body (u ++ (keyword ++ ' ' :: x)) = collapseBlankLines (quoteReferences
      (beforeReferences (u ++ keyword ++ ' ' :: quoteBackticked x))) := by
  have hapart : Apart "PRAGMA".toList u (keyword ++ ' ' :: x) := .of_right (by decide) u _
  have hkeyword : ';' ∉ keyword ∧ '\x60' ∉ keyword := by decide
  have hsemi : ';' ∉ keyword ++ ' ' :: x := by simp [hkeyword, hx]
  have htick : '\x60' ∉ u ++ keyword ++ [' '] := by simp [hkeyword, hu.1]
  rw [body_eq_finish, stripPragmas_append hu.2 hapart, stripPragmas_eq_self hsemi,
    ← List.append_assoc, List.append_cons, quoteBackticked_append htick, ← List.append_cons]

theorem body_reference {u : List Char} (htick : '\x60' ∉ u)
    (hpragma : ¬ "PRAGMA".toList <:+: u) (hreference : ¬ "REFERENCES".toList <:+: u) :
    ∃ front spell, Spelling spell ∧ (¬ "INSERT INTO ".toList <:+: u → spell = quoted) ∧
      ∀ table column, IsName table → IsName column →
        body (u ++ referenceTo table column) =
          front ++ columnOf (spell (cased table)) (spell (cased column)) ∧
        body (u ++ referenceTo (inBackticks table) (inBackticks column)) =
          front ++ columnOf (spell (quoted (cased table))) (spell (quoted (cased column))) := by
  obtain ⟨mark, hmark, hat, hbare, hbefore⟩ := beforeReferences_append (atReference_append_keyword hreference)
  obtain ⟨front, spell, hspell, hquoted, hfinish⟩ := finish_append hmark hat
  have hinsert : ¬ "INSERT INTO ".toList <:+: u → ¬ "INSERT INTO ".toList <:+: u ++ keyword := by
    have hk : "INSERT INTO ".toList = "INSERT INTO".toList ++ [' '] := rfl
    rw [hk]
    exact fun hin h => hin (infix_of_last_not_mem (by decide) h)
  refine ⟨front, spell, hspell, fun hin => hquoted (hbare (hinsert hin)), ?_⟩
  intro table column ht hc
  have hcased : ∀ {name}, IsName name → cased name ≠ [] ∧ ∀ c ∈ cased name, isWord c = true :=
    fun hname => rewritesWords_cased.word_ne_nil ⟨hname.1, hname.isWord⟩
  -- what becomes of the names once the backticks are gone
  have hbody : ∀ spell', Spelling spell' →
      collapseBlankLines (quoteReferences (beforeReferences (u ++ keyword ++ ' ' ::
        columnOf (spell' table) (spell' column)))) =
      front ++ columnOf (spell (spell' (cased table))) (spell (spell' (cased column))) := by
    intro spell' hs
    rw [hbefore (plain_columnOf hs ht.isWord hc.isWord), columnOf_rewritten rewritesWords_cased,
      spell_rewritten rewritesWords_cased hs, spell_rewritten rewritesWords_cased hs]
    exact hfinish (not_mem_spelled hs (hcased ht) (by decide) (by decide))
      (not_mem_spelled hs (hcased hc) (by decide) (by decide))
      (plain_columnOf hs (hcased ht).2 (hcased hc).2)
  have hname : ∀ {name : List Char}, IsName name → name ≠ [] ∧ '\x60' ∉ name ∧ ';' ∉ name :=
    fun h => ⟨h.1, fun h' => absurd (h.isWord _ h') (by decide), fun h' => absurd (h.isWord _ h') (by decide)⟩
  have hplain : '\x60' ∉ columnOf table column ∧ ';' ∉ columnOf table column := by
    simp [columnOf, hname ht, hname hc]
  have hticks : ';' ∉ columnOf (inBackticks table) (inBackticks column) := by
    simp [columnOf, inBackticks, hname ht, hname hc]
  rw [referenceTo_eq, referenceTo_eq,
    body_append ⟨htick, hpragma⟩ hplain.2, quoteBackticked_eq_self hplain.1,
    body_append ⟨htick, hpragma⟩ hticks,
    quoteBackticked_columnOf ⟨ht.1, (hname ht).2.1⟩ ⟨hc.1, (hname hc).2.1⟩]
  have hplainly := hbody id (.inl rfl)
  simp only [id] at hplainly
  exact ⟨hplainly, hbody quoted (.inr rfl)⟩

theorem length_columnOf_spelled {spell : List Char → List Char} (hs : Spelling spell)
    (table column : List Char) : (columnOf (spell (quoted table)) (spell (quoted column))).length =
      (columnOf (spell table) (spell column)).length + 4 := by
  rcases hs with rfl | rfl
  · simp [columnOf, quoted]
    omega
  · simp [columnOf, quoted]
    omega

/-- The names of a reference are spelled as the text in front of it decides, in double quotes in all but
odd cases, and names in backticks once more than that. -/
theorem convert_backticked_reference {u : List Char} (htick : '\x60' ∉ u)
    (hpragma : ¬ "PRAGMA".toList <:+: u) (hreference : ¬ "REFERENCES".toList <:+: u) :
    ∃ front spell, Spelling spell ∧ (¬ "INSERT INTO ".toList <:+: u → spell = quoted) ∧
      ∀ table column, IsName table → IsName column →
        convert (u ++ referenceTo table column) =
          preamble ++ (front ++ columnOf (spell (cased table)) (spell (cased column))) ∧
        convert (u ++ referenceTo (inBackticks table) (inBackticks column)) =
          preamble ++ (front ++ columnOf (spell (quoted (cased table))) (spell (quoted (cased column)))) ∧
        convert (u ++ referenceTo (inBackticks table) (inBackticks column)) ≠
          convert (u ++ referenceTo table column) := by
  obtain ⟨front, spell, hspell, hquoted, hbody⟩ := body_reference htick hpragma hreference
  refine ⟨front, spell, hspell, hquoted, fun table column ht hc => ?_⟩
  obtain ⟨hbare, hticks⟩ := hbody table column ht hc
  unfold convert
  rw [hbare, hticks]
  refine ⟨rfl, rfl, fun heq => ?_⟩
  have hcolumn := List.append_cancel_left (List.append_cancel_left heq)
  have hlen := length_columnOf_spelled hspell (cased table) (cased column)
  rw [hcolumn] at hlen
  omega

theorem convert_backticked_reference_users : ∃ front spell,
    Spelling spell ∧ (¬ "INSERT INTO ".toList <:+: "CREATE TABLE posts (author INTEGER ".toList → spell = quoted) ∧
      convert ("CREATE TABLE posts (author INTEGER ".toList ++ referenceTo "users".toList "id".toList) =
        preamble ++ (front ++ columnOf (spell (cased "users".toList)) (spell (cased "id".toList))) := by
  obtain ⟨front, spell, hspell, hquoted, h⟩ := convert_backticked_reference
    (u := "CREATE TABLE posts (author INTEGER ".toList) (by decide) (by decide) (by decide)
  obtain ⟨hbare, -, -⟩ := h "users".toList "id".toList ⟨by decide, by simp⟩ ⟨by decide, by simp⟩
  exact ⟨front, spell, hspell, hquoted, hbare⟩

/-- The rule for references puts quotes around quotes. -/
theorem convert_backticked_reference_ne :
    convert ("CREATE TABLE posts (author INTEGER ".toList ++
      referenceTo (inBackticks "users".toList) (inBackticks "id".toList)) ≠
    convert ("CREATE TABLE posts (author INTEGER ".toList ++ referenceTo "users".toList "id".toList) := by
  decide +kernel

end SqlDump.Schema
