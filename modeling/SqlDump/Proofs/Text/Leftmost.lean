import SqlDump.Proofs.Text.Cut
/-!
# The leftmost hit

Where a pattern finds exactly the parts that some edit allows, a replacement can be told without the
scan: the leftmost such part is written anew, and the text behind it is rewritten in the same way
(`FirstEdit.replaceAll`). A text with no such part is kept. What all hits together put in or exchange is counted hit
by hit (`counted_replaceAll`).
-/

namespace SqlDump.Text

variable {p : Pattern (List Char)} {Edit : EditAt} {s t : List Char}

/-- The text is `u`, then `old`, then `v`, and `old` may be written as `new`. Further left nothing may
be written anew. -/
structure FirstEdit (Edit : EditAt) (s u old new v : List Char) : Prop where
  parts : s = u ++ (old ++ v)
  edit : Edit u.getLast? old new v
  first : ∀ u' old' new' v', s = u' ++ (old' ++ v') → Edit u'.getLast? old' new' v' → u.length ≤ u'.length

/-- Among the parts that may be written anew, one is the leftmost. -/
theorem exists_firstEdit {u old new v : List Char} (hs : s = u ++ (old ++ v)) (he : Edit u.getLast? old new v) :
    ∃ u old new v, FirstEdit Edit s u old new v := by
  have hex : ∃ n, ∃ u old new v, s = u ++ (old ++ v) ∧ Edit u.getLast? old new v ∧ u.length = n :=
    ⟨u.length, u, old, new, v, hs, he, rfl⟩
  classical
  obtain ⟨u, old, new, v, hs, he, hu⟩ := Nat.find_spec hex
  refine ⟨u, old, new, v, hs, he, ?_⟩
  intro u' old' new' v' hs' he'
  rw [hu]
  exact Nat.find_min' hex ⟨u', old', new', v', hs', he', rfl⟩

theorem Pattern.Finds.exists_edit (hp : p.Finds Edit) {before : Option Char} (h : p before s ≠ none) :
    ∃ old new v, s = old ++ v ∧ Edit before old new v := by
  obtain ⟨hit, hhit⟩ := Option.ne_none_iff_exists'.1 h
  obtain ⟨old, v, hs, -, -, he⟩ := hp _ _ _ hhit
  exact ⟨old, hit.value, v, hs, he⟩

theorem Pattern.Finds.old_ne_nil (hp : p.Finds Edit) (hh : p.Hits Edit) {before : Option Char}
    {old new v : List Char} (he : Edit before old new v) : old ≠ [] := by
  obtain ⟨part, v', -, hne, hw, -⟩ := hp _ _ _ (hh he)
  intro hold
  rw [hold] at hw
  exact hne (List.length_eq_zero_iff.1 hw.symm)

/-- The leftmost part is written anew, and the text behind it is scanned on its own. -/
theorem FirstEdit.replaceAll (hp : p.Finds Edit) (hh : p.Hits Edit) (hblind : ∀ b s, p b s = p none s)
    {u old new v : List Char} (h : FirstEdit Edit s u old new v) :
    replaceAll p s = u ++ (new ++ Text.replaceAll p v) := by
  have hkept : ∀ x y, u = x ++ y → y ≠ [] → p (x.getLast?.or none) (y ++ (old ++ v)) = none := by
    rintro x y rfl hy
    by_contra hhit
    rw [Option.or_none] at hhit
    obtain ⟨old', new', v', hs', he'⟩ := hp.exists_edit hhit
    have hle := h.first x old' new' v' (by rw [h.parts, List.append_assoc, hs']) he'
    have hpos := List.length_pos_iff.2 hy
    rw [List.length_append] at hle
    omega
  have hold : p (u.getLast?.or none) (old ++ v) = some ⟨old.length, new⟩ := by
    rw [Option.or_none]
    exact hh h.edit
  rw [h.parts, replaceAll_eq_replaceFrom, replaceFrom_kept hkept,
    replaceFrom_of_some (hp.old_ne_nil hh h.edit) hold, replaceFrom_congr (hblind _ v)]
  rfl

/-- Without a leftmost part that may be written anew, the text is kept. -/
theorem replaceAll_of_no_firstEdit (hp : p.Finds Edit) (h : ∀ u old new v, ¬ FirstEdit Edit s u old new v) :
    replaceAll p s = s := by
  have hkept : ∀ x y, s = x ++ y → y ≠ [] → p (x.getLast?.or none) (y ++ []) = none := by
    rintro x y rfl hy
    by_contra hhit
    rw [Option.or_none, List.append_nil] at hhit
    obtain ⟨old, new, v, rfl, he⟩ := hp.exists_edit hhit
    obtain ⟨u, old, new, v, hfirst⟩ := exists_firstEdit rfl he
    exact h u old new v hfirst
  have hs := replaceFrom_kept hkept
  rwa [List.append_nil, replaceFrom_nil, List.append_nil] at hs

/-! ## What is put into a text -/

/-- The second text is the first one with `n` characters put in, all of them `c`. -/
structure PutIn (c : Char) (n : Nat) (s t : List Char) : Prop where
  sublist : s.Sublist t
  length : t.length = s.length + n
  count : t.count c = s.count c + n

theorem PutIn.refl (c : Char) (s : List Char) : PutIn c 0 s s := ⟨.refl s, rfl, rfl⟩

theorem PutIn.append {c : Char} {m n : Nat} {s' t' : List Char} (h : PutIn c m s t) (h' : PutIn c n s' t') :
    PutIn c (m + n) (s ++ s') (t ++ t') where
  sublist := h.sublist.append h'.sublist
  length := by
    rw [List.length_append, List.length_append, h.length, h'.length]
    omega
  count := by
    rw [List.count_append, List.count_append, h.count, h'.count]
    omega

/-- How many parts a pattern hits in a text. -/
def hitCount (p : Pattern (List Char)) (s : List Char) : Nat := ((pieces p s).filterMap Piece.value?).length

/-- What a rewriting comes to is counted hit by hit. -/
theorem counted_replaceAll (Counted : Nat → List Char → List Char → Prop) {n : Nat} (hkeep : ∀ s, Counted 0 s s)
    (happend : ∀ {m n s t s' t'}, Counted m s t → Counted n s' t' → Counted (m + n) (s ++ s') (t ++ t'))
    (hp : p.Finds Edit) (hn : ∀ {b old new v}, Edit b old new v → Counted n old new) (s : List Char) :
    Counted (n * hitCount p s) s (replaceAll p s) := by
  suffices ∀ before s, Counted (n * ((scan p before 0 [] s).filterMap Piece.value?).length) s
      (replaceFrom p before s) from this none s
  intro before s
  induction before, s using hp.scan_induction with
  | nil before => exact hkeep []
  | keep before d s hd ih =>
    rw [replaceFrom_cons_of_none hd, scan_cons_of_none hd, List.filterMap_cons_none rfl]
    have hcons := happend (hkeep [d]) ih
    rwa [Nat.zero_add] at hcons
  | hit before old new s hne hold he ih =>
    have hvalue : (Piece.hit new).value? = some new := rfl
    rw [replaceFrom_of_some hne hold, scan_of_some hne hold, List.filterMap_cons_some hvalue, List.length_cons,
      Nat.mul_succ, Nat.add_comm]
    exact happend (hn he) ih

/-- What each hit puts in, is put in as often as the pattern hits. -/
theorem putIn_replaceAll {c : Char} {n : Nat} (hp : p.Finds Edit)
    (hn : ∀ {b old new v}, Edit b old new v → PutIn c n old new) (s : List Char) :
    PutIn c (n * hitCount p s) s (replaceAll p s) :=
  counted_replaceAll (PutIn c) (.refl c) (fun h h' => h.append h') hp hn s

/-! ## What is exchanged in a text -/

/-- The texts are equal but for `n` characters, which are `c` in the first one and `d` in the second. -/
structure Exchanged (c d : Char) (n : Nat) (s t : List Char) : Prop where
  alike : List.Forall₂ (fun x y => y = x ∨ x = c ∧ y = d) s t
  count : (s.zip t).countP (fun pair => pair.1 != pair.2) = n

theorem Exchanged.refl (c d : Char) (s : List Char) : Exchanged c d 0 s s where
  alike := List.forall₂_same.2 fun _ _ => .inl rfl
  count := by
    induction s with
    | nil => rfl
    | cons x s ih => simpa using ih

theorem Exchanged.singleton {c d : Char} (h : c ≠ d) : Exchanged c d 1 [c] [d] where
  alike := .cons (.inr ⟨rfl, rfl⟩) .nil
  count := by simp [h]

theorem Exchanged.append {c d : Char} {m n : Nat} {s' t' : List Char} (h : Exchanged c d m s t)
    (h' : Exchanged c d n s' t') : Exchanged c d (m + n) (s ++ s') (t ++ t') where
  alike := List.rel_append h.alike h'.alike
  count := by rw [List.zip_append h.alike.length_eq, List.countP_append, h.count, h'.count]

/-- What each hit exchanges, is exchanged as often as the pattern hits. -/
theorem exchanged_replaceAll {c d : Char} {n : Nat} (hp : p.Finds Edit)
    (hn : ∀ {b old new v}, Edit b old new v → Exchanged c d n old new) (s : List Char) :
    Exchanged c d (n * hitCount p s) s (replaceAll p s) :=
  counted_replaceAll (Exchanged c d) (.refl c d) (fun h h' => h.append h') hp hn s

end SqlDump.Text
