import SqlDump.Proofs.Rule.Border
/-!
# Directives and statements

A directive reaches up to the first semicolon and never over it, so that the rule works on each
statement by itself (`stripPragmas_statements`). A keyword with nothing between it and the semicolon
is no directive.
-/

namespace SqlDump.Rule

open Text

/-- What is left of a statement, of which the semicolon is not given: the part in front of its
directive, or the statement with its semicolon. -/
def stripStatement (statement : List Char) : List Char :=
  match statement.dropInfix? "PRAGMA".toList with
  | some (front, _ :: _) => front
  | _ => statement ++ [';']

/-! ## The first keyword of a statement -/

theorem eq_of_dropInfix? {keyword s u v : List Char} (h : s.dropInfix? keyword = some (u, v)) :
    s = u ++ (keyword ++ v) := by
  obtain ⟨⟨k, rfl, hk⟩, -⟩ := List.dropInfix?_eq_some_iff.1 h
  rw [eq_of_beq hk, List.append_assoc]

theorem not_infix_of_dropInfix? {keyword s u v : List Char} (hne : keyword ≠ [])
    (h : s.dropInfix? keyword = some (u, v)) : ¬ keyword <:+: u := by
  rintro ⟨x, y, rfl⟩
  obtain ⟨⟨k, rfl, -⟩, hfirst⟩ := List.dropInfix?_eq_some_iff.1 h
  have hle := hfirst x keyword (y ++ k ++ v) (by simp) (beq_self_eq_true _)
  have hpos := List.length_pos_iff.2 hne
  simp only [List.length_append] at hle
  omega

theorem not_infix_of_dropInfix?_none {keyword s : List Char} (h : s.dropInfix? keyword = none) :
    ¬ keyword <:+: s := by
  rintro ⟨x, y, hs⟩
  -- the shortest front is the one that is found
  have hex : ∃ n, ∃ u v, u ++ keyword ++ v = s ∧ u.length = n := ⟨x.length, x, y, hs, rfl⟩
  classical
  obtain ⟨u, v, hu, hlength⟩ := Nat.find_spec hex
  have hfirst : s.dropInfix? keyword = some (u, v) := by
    refine List.dropInfix?_eq_some_iff.2 ⟨⟨keyword, hu.symm, beq_self_eq_true _⟩, ?_⟩
    intro u' k v' hs' hk
    rw [hlength]
    exact Nat.find_min' hex ⟨u', v', by rw [← eq_of_beq hk, hs'], rfl⟩
  rw [h] at hfirst
  cases hfirst

/-! ## One statement -/

theorem apart_semicolon (s t : List Char) : Apart "PRAGMA".toList (s ++ [';']) t :=
  .of_left (by decide) (by decide) s t

theorem stripPragmas_before {u : List Char} (hu : ¬ "PRAGMA".toList <:+: u) (t : List Char) :
    stripPragmas (u ++ ("PRAGMA".toList ++ t)) = u ++ stripPragmas ("PRAGMA".toList ++ t) :=
  stripPragmas_append hu (.of_right (by decide) u t)

/-- A statement without the keyword is kept. -/
theorem stripPragmas_kept {c : List Char} (hc : ¬ "PRAGMA".toList <:+: c) (s : List Char) :
    stripPragmas (c ++ ';' :: s) = c ++ ';' :: stripPragmas s := by
  have hno : ¬ "PRAGMA".toList <:+: c ++ [';'] := fun h =>
    hc (infix_of_last_not_mem (f := "PRAGM".toList) (d := 'A') (by decide) h)
  have hcut := stripPragmas_append hno (apart_semicolon c s)
  rwa [List.append_assoc, List.singleton_append, List.append_assoc, List.singleton_append] at hcut

/-- A directive is removed with its semicolon. -/
theorem stripPragmas_directive {body : List Char} (hne : body ≠ []) (hbody : ';' ∉ body) (s : List Char) :
    stripPragmas ("PRAGMA".toList ++ (body ++ ';' :: s)) = stripPragmas s := by
  have hhit : pragma none (("PRAGMA".toList ++ (body ++ [';'])) ++ s) =
      some ⟨("PRAGMA".toList ++ (body ++ [';'])).length, []⟩ := by
    unfold pragma
    generalize "PRAGMA".toList = keyword
    simp [takeWhile_append_cons_of_not_mem hbody, hne, Nat.add_assoc]
  have hstrip := pragma_opens.replaceAll_hit (by simp) hhit
  simpa [stripPragmas] using hstrip

/-- The keyword alone is no directive. -/
theorem stripPragmas_bare (s : List Char) :
    stripPragmas ("PRAGMA".toList ++ ';' :: s) = "PRAGMA".toList ++ ';' :: stripPragmas s := by
  have hdecl : pragma none ('P' :: ("RAGMA".toList ++ ';' :: s)) = none := rfl
  have hrest : stripPragmas ("RAGMA".toList ++ [';'] ++ s) = "RAGMA".toList ++ [';'] ++ stripPragmas s :=
    stripPragmas_append (by decide) (apart_semicolon _ s)
  rw [List.append_assoc, List.append_assoc] at hrest
  have hkept := pragma_opens.replaceAll_of_declines hdecl
  exact hkept.trans (congrArg ('P' :: ·) hrest)

/-- The rule works on a statement without looking at the text behind it. -/
theorem stripPragmas_statement {c : List Char} (hc : ';' ∉ c) (s : List Char) :
    stripPragmas (c ++ ';' :: s) = stripStatement c ++ stripPragmas s := by
  unfold stripStatement
  cases h : c.dropInfix? "PRAGMA".toList with
  | none => simpa using stripPragmas_kept (not_infix_of_dropInfix?_none h) s
  | some cut =>
    obtain ⟨front, body⟩ := cut
    have hfront := not_infix_of_dropInfix? (by decide) h
    obtain rfl := eq_of_dropInfix? h
    rw [List.append_assoc, List.append_assoc, stripPragmas_before hfront]
    cases body with
    | nil =>
      rw [List.nil_append, stripPragmas_bare]
      simp
    | cons d body =>
      have hbody : ';' ∉ d :: body := fun hmem => hc (by simp [hmem])
      rw [stripPragmas_directive (List.cons_ne_nil d body) hbody]

/-! ## All statements -/

/-- Each statement loses its directive, and what stands behind the last semicolon is kept, as is every
text without the keyword. -/
theorem stripPragmas_statements :
    (∀ (statements : List (List Char)) (tail : List Char), (∀ c ∈ statements, ';' ∉ c) → ';' ∉ tail →
      stripPragmas (statements.flatMap (· ++ [';']) ++ tail) = statements.flatMap stripStatement ++ tail) ∧
      ∀ s : List Char, ¬ "PRAGMA".toList <:+: s → stripPragmas s = s := by
  constructor
  · intro statements tail hstatements htail
    induction statements with
    | nil => exact stripPragmas_eq_self htail
    | cons c statements ih =>
      have hrest := ih fun d hd => hstatements d (List.mem_cons_of_mem c hd)
      have hc := stripPragmas_statement (hstatements c List.mem_cons_self)
        (statements.flatMap (· ++ [';']) ++ tail)
      rw [hrest] at hc
      simpa [List.flatMap_cons] using hc
  · intro s hs
    exact pragma_opens.replaceAll_eq_self hs

/-- A directive over two lines, a keyword without anything, and a directive that is not ended. -/
theorem stripPragmas_statements_three :
    stripPragmas "BEGIN;\nPRAGMA\nPRAGMA x;PRAGMA;PRAGMA y".toList = "BEGIN;\nPRAGMA;PRAGMA y".toList ∧
      stripPragmas "BEGIN;".toList = "BEGIN;".toList := by
  have hsplit := stripPragmas_statements.1 ["BEGIN".toList, "\nPRAGMA\nPRAGMA x".toList, "PRAGMA".toList]
    "PRAGMA y".toList (by decide) (by decide)
  have hstrip : ["BEGIN".toList, "\nPRAGMA\nPRAGMA x".toList, "PRAGMA".toList].flatMap stripStatement ++
      "PRAGMA y".toList = "BEGIN;\nPRAGMA;PRAGMA y".toList := by decide
  rw [hstrip] at hsplit
  exact ⟨hsplit, stripPragmas_statements.2 _ (by decide)⟩

end SqlDump.Rule
