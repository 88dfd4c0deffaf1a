import Mathlib
import SqlDump.Text.Scan
/-!
# What a replacement does to a text

`Edits Keep Edit before s t` says that `t` comes from `s`, which stands behind the character
`before`, by going through `s` once: a character is kept where `Keep` allows it, and a part is
written anew where `Edit` allows it. `edits_replaceFrom` reads every `replaceFrom` this way, and
`Edits.refine` cuts edits into smaller ones, so that a rule can be looked at as coarsely or as
finely as a proof needs.
-/

namespace SqlDump.Text

/-- The places where a character may be kept: the character before it and the text from it on. -/
abbrev KeepAt := Option Char → List Char → Prop

/-- The places where a part may be written anew: the character before it, the part, what is written
for it, and the text behind it. -/
abbrev EditAt := Option Char → List Char → List Char → List Char → Prop

inductive Edits (Keep : KeepAt) (Edit : EditAt) : Option Char → List Char → List Char → Prop
  | nil {before} : Edits Keep Edit before [] []
  | keep {before c s t} : Keep before (c :: s) → Edits Keep Edit (some c) s t →
      Edits Keep Edit before (c :: s) (c :: t)
  | edit {before old new s t} : Edit before old new s →
      Edits Keep Edit (old.getLast?.or before) s t →
      Edits Keep Edit before (old ++ s) (new ++ t)

/-- Any character may be kept. -/
def Freely : KeepAt := fun _ _ => True

namespace Edits

variable {Keep Keep' : KeepAt} {Edit Edit' : EditAt} {before : Option Char} {s t : List Char}

/-- Each edit may be replaced by finer ones that lead to the same text. -/
theorem refine (h : Edits Keep Edit before s t) (hk : ∀ b s, Keep b s → Keep' b s)
    (he : ∀ b old new s t, Edit b old new s → Edits Keep' Edit' (old.getLast?.or b) s t →
      Edits Keep' Edit' b (old ++ s) (new ++ t)) :
    Edits Keep' Edit' before s t := by
  induction h with
  | nil => exact .nil
  | keep k _ ih => exact .keep (hk _ _ k) ih
  | edit e _ ih => exact he _ _ _ _ _ e ih

theorem mono (h : Edits Keep Edit before s t) (hk : ∀ b s, Keep b s → Keep' b s)
    (he : ∀ b old new s, Edit b old new s → Edit' b old new s) : Edits Keep' Edit' before s t :=
  h.refine hk fun _ _ _ _ _ e ht => .edit (he _ _ _ _ e) ht

theorem keepAll (kept : List Char) : ∀ before, Edits Freely Edit (kept.getLast?.or before) s t →
    Edits Freely Edit before (kept ++ s) (kept ++ t) := by
  induction kept with
  | nil => intro before h; simpa using h
  | cons c cs ih =>
    intro before h
    refine .keep trivial (ih _ ?_)
    cases cs <;> simpa [List.getLast?_cons] using h

end Edits

/-! ## Replacements are edits -/

/-- The longest front of a text in a class of characters, and what is behind it. -/
theorem exists_span (q : Char → Bool) (s : List Char) :
    ∃ w rest, s = w ++ rest ∧ s.takeWhile q = w ∧ s.drop w.length = rest ∧
      (∀ c ∈ w, q c = true) ∧ rest.head?.any q = false := by
  refine ⟨s.takeWhile q, s.dropWhile q, by simp, rfl, ?_, ?_, ?_⟩
  · calc s.drop (s.takeWhile q).length
        = (s.takeWhile q ++ s.dropWhile q).drop (s.takeWhile q).length := by
          rw [List.takeWhile_append_dropWhile]
      _ = s.dropWhile q := List.drop_left
  · exact fun c hc => List.all_eq_true.1 List.all_takeWhile c hc
  · have := List.head?_dropWhile_not q s
    cases h : (s.dropWhile q).head? with
    | none => rfl
    | some c => simpa [h] using this

/-- A text is a run of a class of characters, maybe an empty one, and then ends or goes on with another
character. -/
theorem span_induction (q : Char → Bool) {P : List Char → Prop}
    (run : ∀ w, (∀ c ∈ w, q c = true) → P w)
    (cons : ∀ w c s, (∀ c ∈ w, q c = true) → q c = false → P s → P (w ++ c :: s)) (s : List Char) :
    P s := by
  induction hn : s.length using Nat.strongRecOn generalizing s with
  | ind n ih =>
    obtain ⟨w, rest, rfl, -, -, hw, hstop⟩ := exists_span q s
    cases rest with
    | nil => simpa using run w hw
    | cons c rest =>
      have hlt : rest.length < n := by
        rw [← hn, List.length_append, List.length_cons]
        omega
      exact cons w c rest hw hstop (ih _ hlt rest rfl)

theorem takeWhile_append_of_stop {q : Char → Bool} {w rest : List Char} (hw : ∀ c ∈ w, q c = true)
    (hstop : rest.head?.any q = false) : (w ++ rest).takeWhile q = w := by
  have hrest : rest.takeWhile q = [] := by
    cases rest with
    | nil => rfl
    | cons c rest => exact List.takeWhile_cons_of_neg (by simpa using hstop)
  rw [List.takeWhile_append_of_pos hw, hrest, List.append_nil]

theorem ne_of_not_mem {c : Char} {w : List Char} (h : c ∉ w) : ∀ d ∈ w, (d != c) = true := by
  intro d hd
  rw [bne_iff_ne]
  rintro rfl
  exact h hd

theorem takeWhile_append_cons_of_not_mem {c : Char} {w : List Char} (h : c ∉ w) (s : List Char) :
    (w ++ c :: s).takeWhile (· != c) = w := by
  apply takeWhile_append_of_stop (ne_of_not_mem h)
  simp

/-- Texts that start alike up to the first character out of a class are equal up to there. -/
theorem append_cons_inj_of_class {q : Char → Bool} {w v s t : List Char} {c d : Char}
    (hw : ∀ c ∈ w, q c = true) (hv : ∀ c ∈ v, q c = true) (hc : q c = false) (hd : q d = false)
    (h : w ++ c :: s = v ++ d :: t) : w = v ∧ c = d ∧ s = t := by
  have hstop : (c :: s).head?.any q = false := hc
  have hstop' : (d :: t).head?.any q = false := hd
  have hwv : w = v := by
    rw [← takeWhile_append_of_stop hw hstop, h, takeWhile_append_of_stop hv hstop']
  subst hwv
  obtain ⟨hcd, hst⟩ := List.cons.inj (List.append_cancel_left h)
  exact ⟨rfl, hcd, hst⟩

/-- Whatever the pattern hits is a part, not an empty one, that `Edit` allows to be written anew. -/
def Pattern.Finds (p : Pattern (List Char)) (Edit : EditAt) : Prop :=
  ∀ before s h, p before s = some h →
    ∃ old rest, s = old ++ rest ∧ old ≠ [] ∧ h.width = old.length ∧ Edit before old h.value rest

/-- The pattern hits wherever `Edit` allows a part to be written anew. -/
def Pattern.Hits (p : Pattern (List Char)) (Edit : EditAt) : Prop :=
  ∀ {before old new rest}, Edit before old new rest → p before (old ++ rest) = some ⟨old.length, new⟩

/-- The places where a pattern declines. -/
def Pattern.Declines {α : Type} (p : Pattern α) : KeepAt := fun before s => p before s = none

theorem getLast?_cons_or (c : Char) (s : List Char) (b : Option Char) :
    (c :: s).getLast?.or b = s.getLast?.or (some c) := by
  cases s <;> simp [List.getLast?_cons]

theorem getLast?_append_or (x y : List Char) (b : Option Char) :
    (x ++ y).getLast?.or b = y.getLast?.or (x.getLast?.or b) := by
  rw [List.getLast?_append, Option.or_assoc]

theorem scan_of_some {α : Type} {p : Pattern α} {before : Option Char} {old rest : List Char} {a : α}
    (hne : old ≠ []) (h : p before (old ++ rest) = some ⟨old.length, a⟩) :
    scan p before 0 [] (old ++ rest) = .hit a :: scan p (old.getLast?.or before) 0 [] rest := by
  obtain ⟨c, covered, rfl⟩ := List.exists_cons_of_ne_nil hne
  rw [List.cons_append] at h ⊢
  rw [scan_cons_of_some h, getLast?_cons_or]

theorem replaceFrom_of_some {p : Pattern (List Char)} {before : Option Char} {old new rest : List Char}
    (hne : old ≠ []) (h : p before (old ++ rest) = some ⟨old.length, new⟩) :
    replaceFrom p before (old ++ rest) = new ++ replaceFrom p (old.getLast?.or before) rest := by
  simp [replaceFrom, scan_of_some hne h, Piece.text]

/-- A scan takes a text apart into characters that it keeps and parts that it hits. -/
theorem Pattern.Finds.scan_induction {p : Pattern (List Char)} {Edit : EditAt} (hp : p.Finds Edit)
    {P : Option Char → List Char → Prop} (nil : ∀ before, P before [])
    (keep : ∀ before c s, p before (c :: s) = none → P (some c) s → P before (c :: s))
    (hit : ∀ before old new s, old ≠ [] → p before (old ++ s) = some ⟨old.length, new⟩ →
      Edit before old new s → P (old.getLast?.or before) s → P before (old ++ s))
    (before : Option Char) (s : List Char) : P before s := by
  -- behind a hit the scan goes on in a shorter text, not in the tail
  induction hn : s.length using Nat.strongRecOn generalizing before s with
  | ind n ih =>
    cases s with
    | nil => exact nil before
    | cons c rest =>
      cases hc : p before (c :: rest) with
      | none => exact keep before c rest hc (ih _ (by simp [← hn]) _ rest rfl)
      | some h =>
        obtain ⟨old, tail, hs, hne, hw, he⟩ := hp _ _ _ hc
        have hlt : tail.length < n := by
          have := List.length_pos_iff.2 hne
          rw [← hn, hs, List.length_append]
          omega
        rw [hs] at hc ⊢
        refine hit before old h.value tail hne ?_ he (ih _ hlt _ tail rfl)
        rw [hc, ← hw]

theorem edits_replaceFrom {p : Pattern (List Char)} {Edit : EditAt} (hp : p.Finds Edit)
    (s : List Char) (before : Option Char) : Edits p.Declines Edit before s (replaceFrom p before s) := by
  induction before, s using hp.scan_induction with
  | nil before => exact .nil
  | keep before c s hc ih =>
    rw [replaceFrom_cons_of_none hc]
    exact .keep hc ih
  | hit before old new s hne hc he ih =>
    rw [replaceFrom_of_some hne hc]
    exact .edit he ih

theorem edits_replaceAll {p : Pattern (List Char)} {Edit : EditAt} (hp : p.Finds Edit)
    (s : List Char) : Edits p.Declines Edit none s (replaceAll p s) :=
  edits_replaceFrom hp s none

/-- Where hits in the first part of a text do not see the second part, both are rewritten on their own. -/
theorem replaceFrom_append {p : Pattern (List Char)} {Edit : EditAt} {s t : List Char} (hfind : p.Finds Edit)
    (h : ∀ b {v}, v <:+ s → v ≠ [] → p b (v ++ t) = p b v) (before : Option Char) :
    replaceFrom p before (s ++ t) =
      replaceFrom p before s ++ replaceFrom p (s.getLast?.or before) t := by
  induction before, s using hfind.scan_induction with
  | nil before => simp
  | keep before c s hc ih =>
    have hstop := h before (List.suffix_refl _) (List.cons_ne_nil c s)
    rw [hc, List.cons_append] at hstop
    rw [List.cons_append, replaceFrom_cons_of_none hstop, replaceFrom_cons_of_none hc,
      ih fun b _ hv => h b (hv.trans (List.suffix_cons c s)), List.cons_append, getLast?_cons_or]
  | hit before old new s hne hc _ ih =>
    have hstop := h before (List.suffix_refl _) (List.append_ne_nil_of_left_ne_nil hne s)
    rw [hc, List.append_assoc] at hstop
    rw [List.append_assoc, replaceFrom_of_some hne hstop, replaceFrom_of_some hne hc,
      ih fun b _ hv => h b (hv.trans (List.suffix_append old s)), List.append_assoc, getLast?_append_or]

theorem literal_finds {sought : List Char} (written : List Char) (hne : sought ≠ []) :
    Pattern.Finds (literal sought written) fun _ old new _ => old = sought ∧ new = written := by
  intro before s h hh
  unfold literal at hh
  split at hh
  case isFalse => cases hh
  case isTrue hs =>
    cases hh
    obtain ⟨rest, rfl⟩ := List.isPrefixOf_iff_prefix.1 hs
    exact ⟨sought, rest, rfl, hne, rfl, rfl, rfl⟩

end SqlDump.Text
