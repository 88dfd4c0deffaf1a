import SqlDump.Proofs.Text.Occurrence
/-!
# Rewriting a text in two parts

A border in a text cuts a pattern if no hit reaches over it and what is hit before it does not
hang on what is behind it. Both parts can then be rewritten on their own (`Pattern.Cut.replaceAll`).
Whether a border cuts a pattern comes down to `Apart`: a fixed text does not occur across it. Where the
text that every hit opens with does not occur at all, the first part is kept
(`Pattern.Opens.replaceAll_append`).
-/

namespace SqlDump.Text

/-! ## Texts that do not occur across a border -/

/-- No occurrence of `f` starts in `s` and ends in `t`. -/
def Apart (f s t : List Char) : Prop :=
  ∀ v y, f = v ++ y → v ≠ [] → y ≠ [] → v <:+ s → ¬ y <+: t

theorem Apart.of_right {f w : List Char} (h : NoMeet f.tail w) (s x : List Char) :
    Apart f s (w ++ x) := by
  rintro v y rfl hv hy _ hyx
  obtain ⟨c, v, rfl⟩ := List.exists_cons_of_ne_nil hv
  obtain ⟨h1, h2⟩ := h y ((List.mem_tails _ _).2 (List.suffix_append v y)) hy
  rcases List.prefix_or_prefix_of_prefix hyx (List.prefix_append w x) with hp | hp
  · exact h1 hp
  · exact h2 hp

theorem Apart.of_left {f k : List Char} (h : NoMeet k f) (hin : ¬ k <:+: f) (u t : List Char) :
    Apart f (u ++ k) t := by
  rintro v y rfl hv _ hvs _
  rcases List.suffix_or_suffix_of_suffix hvs (List.suffix_append u k) with hs | hs
  · exact (h v ((List.mem_tails _ _).2 hs) hv).1 (List.prefix_append v y)
  · exact hin (hs.isInfix.trans (List.prefix_append v y).isInfix)

theorem Apart.of_not_mem {f : List Char} {c : Char} (hc : c ∉ f) (s x : List Char) : Apart f s (c :: x) := by
  rintro v y rfl _ hy _ hyx
  obtain ⟨d, y, rfl⟩ := List.exists_cons_of_ne_nil hy
  obtain ⟨rfl, -⟩ := List.cons_prefix_cons.1 hyx
  exact hc (by simp)

theorem Apart.of_head_not_mem {s : List Char} {c : Char} (hc : c ∉ s) (f t : List Char) : Apart (c :: f) s t := by
  intro v y hf hv _ hvs _
  obtain ⟨d, v, rfl⟩ := List.exists_cons_of_ne_nil hv
  obtain ⟨rfl, -⟩ := List.cons.inj hf
  exact hc (hvs.subset (by simp))

theorem Apart.of_last_not_mem {t : List Char} {d : Char} (hd : d ∉ t) (f s : List Char) : Apart (f ++ [d]) s t := by
  intro v y hf _ hy _ hyt
  have hlast : d = y.getLast hy := by
    have := congrArg List.getLast? hf
    rw [List.getLast?_append_of_ne_nil v hy, List.getLast?_concat, List.getLast?_eq_getLast_of_ne_nil hy] at this
    exact Option.some.inj this
  exact hd (hyt.subset (hlast ▸ List.getLast_mem hy))

theorem Apart.singleton (c : Char) (s t : List Char) : Apart [c] s t := by
  intro v y hf hv hy _ _
  have := congrArg List.length hf
  have := List.length_pos_iff.2 hv
  have := List.length_pos_iff.2 hy
  simp only [List.length_cons, List.length_nil, List.length_append] at *
  omega

theorem Apart.isPrefixOf_append {f s t v : List Char} (h : Apart f s t) (hv : v <:+ s) (hne : v ≠ []) :
    f.isPrefixOf (v ++ t) = f.isPrefixOf v := by
  rw [Bool.eq_iff_iff, List.isPrefixOf_iff_prefix, List.isPrefixOf_iff_prefix]
  constructor
  · intro hf
    rcases List.prefix_or_prefix_of_prefix hf (List.prefix_append v t) with hp | ⟨y, rfl⟩
    · exact hp
    · by_cases hy : y = []
      · simp [hy]
      · exact absurd ((List.prefix_append_right_inj v).1 hf) (h v y rfl hne hy hv)
  · exact fun hf => hf.trans (List.prefix_append v t)

theorem Apart.infix_append {f s t : List Char} (h : Apart f s t) (hf : f <:+: s ++ t) :
    f <:+: s ∨ f <:+: t := by
  obtain ⟨u, v, huv⟩ := hf
  rcases List.append_eq_append_iff.1 huv with ⟨z, rfl, -⟩ | ⟨z, hz, rfl⟩
  · exact .inl ⟨u, z, rfl⟩
  · rcases List.append_eq_append_iff.1 hz with ⟨a, rfl, rfl⟩ | ⟨a, rfl, rfl⟩
    · by_cases ha : a = []
      · exact .inr ⟨[], v, by simp [ha]⟩
      by_cases hne : z = []
      · exact .inl ⟨u, [], by simp [hne]⟩
      · exact absurd (List.prefix_append z v) (h a z rfl ha hne (List.suffix_append u a))
    · exact .inr ⟨a, v, rfl⟩

/-- What ends with a character that the last part does not hold lies in front of it. -/
theorem infix_of_last_not_mem {f u t : List Char} {d : Char} (hd : d ∉ t) (h : f ++ [d] <:+: u ++ t) :
    f ++ [d] <:+: u := by
  rcases (Apart.of_last_not_mem hd f u).infix_append h with h | h
  · exact h
  · exact absurd (h.subset (by simp)) hd

/-! ## Where a border cuts a pattern -/

/-- The border between `s` and `t` cuts the pattern: hits in `s` do not see `t`, and `t` is as at the
start of a text. -/
structure Pattern.Cut (p : Pattern (List Char)) (s t : List Char) : Prop where
  unseen : ∀ b {v}, v <:+ s → v ≠ [] → p b (v ++ t) = p b v
  afresh : p s.getLast? t = p none t

section Cut

variable {p : Pattern (List Char)} {Edit : EditAt} {s t : List Char}

theorem replaceFrom_congr {b b' : Option Char} (h : p b t = p b' t) :
    replaceFrom p b t = replaceFrom p b' t := by
  cases t with
  | nil => rfl
  | cons c t => simp only [replaceFrom, scan, h]

/-- Where a border cuts a pattern, both parts are rewritten on their own. -/
theorem Pattern.Cut.replaceAll (h : p.Cut s t) (hfind : p.Finds Edit) :
    replaceAll p (s ++ t) = Text.replaceAll p s ++ Text.replaceAll p t := by
  rw [replaceAll_eq_replaceFrom, replaceFrom_append hfind h.unseen, Option.or_none,
    replaceFrom_congr h.afresh]
  rfl

/-! ## Texts that are kept -/

/-- Edits that write what stands there change nothing. -/
theorem Edits.eq_of_unchanged {Keep : KeepAt} {before : Option Char} (h : Edits Keep Edit before s t)
    (hsame : ∀ b old new v, old ++ v <:+ s → Edit b old new v → new = old) : t = s := by
  induction h with
  | nil => rfl
  | keep _ _ ih =>
    rw [ih fun b old new v hv => hsame b old new v (hv.trans (List.suffix_cons _ _))]
  | edit e _ ih =>
    rw [hsame _ _ _ _ (List.suffix_refl _) e,
      ih fun b old new v hv => hsame b old new v (hv.trans (List.suffix_append _ _))]

theorem Edits.eq_self {Keep : KeepAt} {before : Option Char} (h : Edits Keep Edit before s t)
    (hno : ∀ b old new v, old ++ v <:+ s → ¬ Edit b old new v) : t = s :=
  h.eq_of_unchanged fun b old new v hv e => absurd e (hno b old new v hv)

theorem replaceAll_eq_self (hfind : p.Finds Edit)
    (hno : ∀ b old new v, old ++ v <:+ s → ¬ Edit b old new v) : replaceAll p s = s :=
  (edits_replaceAll hfind s).eq_self hno

/-- Where no hit starts in the first part of a text, that part is kept. -/
theorem replaceFrom_kept {u : List Char} : ∀ {before : Option Char},
    (∀ x y, u = x ++ y → y ≠ [] → p (x.getLast?.or before) (y ++ t) = none) →
    replaceFrom p before (u ++ t) = u ++ replaceFrom p (u.getLast?.or before) t := by
  induction u with
  | nil => intro before _; simp
  | cons c u ih =>
    intro before h
    have hc : p before (c :: (u ++ t)) = none := by simpa using h [] (c :: u) rfl (by simp)
    have hu : ∀ x y, u = x ++ y → y ≠ [] → p (x.getLast?.or (some c)) (y ++ t) = none := by
      intro x y hxy hy
      have := h (c :: x) y (by rw [hxy, List.cons_append]) hy
      rwa [getLast?_cons_or] at this
    rw [List.cons_append, replaceFrom_cons_of_none hc, ih hu, List.cons_append, getLast?_cons_or]

/-- Every hit of the pattern opens with the text `k`, whatever stands before it. -/
structure Pattern.Opens (p : Pattern (List Char)) (k : List Char) : Prop where
  ne_nil : k ≠ []
  blind : ∀ b s, p b s = p none s
  declines : ∀ {s}, ¬ k <+: s → p none s = none

/-- Where no hit starts in the first part of a text, the second one is rewritten on its own. -/
theorem Pattern.Opens.replaceAll_kept {k : List Char} (hp : p.Opens k)
    (h : ∀ y, y <:+ s → y ≠ [] → p none (y ++ t) = none) : replaceAll p (s ++ t) = s ++ replaceAll p t := by
  have hkept : ∀ x y, s = x ++ y → y ≠ [] → p (x.getLast?.or none) (y ++ t) = none := by
    rintro x y rfl hy
    rw [hp.blind]
    exact h y (List.suffix_append x y) hy
  rw [replaceAll_eq_replaceFrom, replaceFrom_kept hkept, replaceFrom_congr (hp.blind _ t)]
  rfl

theorem Pattern.Opens.replaceAll_append {k : List Char} (hp : p.Opens k) (hno : ¬ k <:+: s)
    (h : Apart k s t) : replaceAll p (s ++ t) = s ++ replaceAll p t := by
  refine hp.replaceAll_kept fun y hy hne => hp.declines fun hk => hno ?_
  rw [← List.isPrefixOf_iff_prefix, h.isPrefixOf_append hy hne, List.isPrefixOf_iff_prefix] at hk
  exact hk.isInfix.trans hy.isInfix

theorem Pattern.Opens.replaceAll_eq_self {k : List Char} (hp : p.Opens k) (hno : ¬ k <:+: s) :
    replaceAll p s = s := by
  have h := hp.replaceAll_append (t := []) hno fun v y _ _ hy _ hyt => hy (List.prefix_nil.1 hyt)
  rwa [List.append_nil, show Text.replaceAll p [] = [] from rfl, List.append_nil] at h

theorem Pattern.Opens.replaceAll_of_declines {k : List Char} {c : Char} (hp : p.Opens k)
    (h : p none (c :: s) = none) : replaceAll p (c :: s) = c :: replaceAll p s := by
  rw [replaceAll_eq_replaceFrom, replaceFrom_cons_of_none h, replaceFrom_congr (hp.blind _ s)]
  rfl

/-- A character that opens no hit is kept. -/
theorem Pattern.Opens.replaceAll_cons {k : List Char} {c : Char} (hp : p.Opens k) (hc : k.head? ≠ some c)
    (s : List Char) : replaceAll p (c :: s) = c :: replaceAll p s := by
  refine hp.replaceAll_of_declines (hp.declines fun hk => hc ?_)
  obtain ⟨d, k, rfl⟩ := List.exists_cons_of_ne_nil hp.ne_nil
  obtain ⟨rfl, -⟩ := List.cons_prefix_cons.1 hk
  rfl

/-- A hit at the start of a text is written anew, and the rest is rewritten on its own. -/
theorem Pattern.Opens.replaceAll_hit {k old new : List Char} (hp : p.Opens k) (hne : old ≠ [])
    (h : p none (old ++ t) = some ⟨old.length, new⟩) : replaceAll p (old ++ t) = new ++ replaceAll p t := by
  rw [replaceAll_eq_replaceFrom, replaceFrom_of_some hne h, replaceFrom_congr (hp.blind _ t)]
  rfl

end Cut

/-! ## The end of a text -/

/-- An end of a text in which no edit lies stays, or an edit in front of it reaches into it. -/
theorem Edits.suffix_cases {Keep : KeepAt} {Edit : EditAt} {before : Option Char} {s t k : List Char}
    (h : Edits Keep Edit before s t) (hk : k <:+ s)
    (hno : ∀ b old new v, old ++ v <:+ k → ¬ Edit b old new v) :
    k <:+ t ∨ ∃ b old new x v, Edit b old new v ∧ x ≠ [] ∧ x <:+ old ∧ k = x ++ v ∧ new ++ v <:+ t := by
  induction h with
  | nil => exact .inl hk
  | @keep _ c s t _ h ih =>
    rcases List.suffix_cons_iff.1 hk with rfl | hk
    · rw [h.eq_self fun b old new v hv => hno b old new v (hv.trans (List.suffix_cons c s))]
      exact .inl (List.suffix_refl _)
    · rcases ih hk with hk | ⟨b, old, new, x, v, e, hx, hxo, hkv, ht⟩
      · exact .inl (hk.trans (List.suffix_cons c t))
      · exact .inr ⟨b, old, new, x, v, e, hx, hxo, hkv, ht.trans (List.suffix_cons c t)⟩
  | @edit b old new s t e h ih =>
    rcases List.suffix_or_suffix_of_suffix hk (List.suffix_append old s) with hks | ⟨x, rfl⟩
    · rcases ih hks with hk | ⟨b, old', new', x, v, e, hx, hxo, hkv, ht⟩
      · exact .inl (hk.trans (List.suffix_append new t))
      · exact .inr ⟨b, old', new', x, v, e, hx, hxo, hkv, ht.trans (List.suffix_append new t)⟩
    · have hs : t = s := h.eq_self fun b old new v hv => hno b old new v (hv.trans (List.suffix_append x s))
      subst hs
      by_cases hx : x = []
      · exact .inl (hx ▸ List.suffix_append new t)
      · have hxo : x <:+ old := by
          obtain ⟨w, hw⟩ := hk
          rw [← List.append_assoc, List.append_left_inj] at hw
          exact ⟨w, hw⟩
        exact .inr ⟨b, old, new, x, t, e, hx, hxo, rfl, List.suffix_refl _⟩

theorem Edits.suffix {Keep : KeepAt} {Edit : EditAt} {before : Option Char} {s t k : List Char}
    (h : Edits Keep Edit before s t) (hk : k <:+ s)
    (hno : ∀ {b old new v}, Edit b old new v → old ≠ [] ∧ NoOverlap old k) : k <:+ t := by
  have hin : ∀ b old new v, old ++ v <:+ k → ¬ Edit b old new v := by
    intro b old new v hv e
    obtain ⟨hne, -, hmeet⟩ := hno e
    exact (hmeet _ ((List.mem_tails _ _).2 hv) (by simp [hne])).2 (List.prefix_append old v)
  rcases h.suffix_cases hk hin with hk | ⟨b, old, new, x, v, e, hx, hxo, rfl, -⟩
  · exact hk
  · obtain ⟨-, hmeet, -⟩ := hno e
    exact absurd (List.prefix_append x v) (hmeet x ((List.mem_tails _ _).2 hxo) hx).1

end SqlDump.Text
