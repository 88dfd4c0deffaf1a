import SqlDump.Proofs.Text.Edits
/-!
# Where a text occurs after a replacement

A rule promises that some text no longer occurs, and the later rules must not bring it back. Both
come from `Edits.occurs`: if no edit can take part in an occurrence of `f` (`Foreign`), then each
occurrence of `f` in the result is one of the source, made of kept characters. `NoOverlap` is the
decidable reason why an edit takes no part: what it writes and `f` cannot share a character.
-/

namespace SqlDump.Text

/-! ## Texts that cannot share a character -/

/-- No end of `a` can be the start of an occurrence of `b`. -/
def NoMeet (a b : List Char) : Prop :=
  ∀ x ∈ a.tails, x ≠ [] → ¬ x <+: b ∧ ¬ b <+: x

/-- No occurrences of `a` and `b` in one text share a character. -/
def NoOverlap (a b : List Char) : Prop := NoMeet a b ∧ NoMeet b a

instance (a b : List Char) : Decidable (NoMeet a b) :=
  inferInstanceAs (Decidable (∀ x ∈ a.tails, x ≠ [] → ¬ x <+: b ∧ ¬ b <+: x))

instance (a b : List Char) : Decidable (NoOverlap a b) := inferInstanceAs (Decidable (_ ∧ _))

theorem NoMeet.append_ne {a b x y z : List Char} (h : NoMeet a b) (hx : x <:+ a) (hne : x ≠ []) :
    x ++ y ≠ b ++ z := by
  intro he
  obtain ⟨h1, h2⟩ := h x ((List.mem_tails _ _).2 hx) hne
  rcases List.append_eq_append_iff.1 he with ⟨w, rfl, -⟩ | ⟨w, rfl, -⟩
  · exact h1 (List.prefix_append x w)
  · exact h2 (List.prefix_append b w)

theorem NoMeet.of_map {a b : List Char} (g : Char → Char) (h : NoMeet (a.map g) (b.map g)) :
    NoMeet a b := by
  intro x hx hne
  have := h (x.map g) ((List.mem_tails _ _).2 (((List.mem_tails _ _).1 hx).map g)) (by simpa using hne)
  exact ⟨fun hp => this.1 (hp.map g), fun hp => this.2 (hp.map g)⟩

theorem NoOverlap.of_map {a b : List Char} (g : Char → Char) (h : NoOverlap (a.map g) (b.map g)) :
    NoOverlap a b :=
  ⟨.of_map g h.1, .of_map g h.2⟩

/-- A text in delimiters that `f` does not hold takes no part of `f`, nor does it hold all of it. -/
theorem NoOverlap.of_delimited {f mid : List Char} {q d : Char} (hq : q ∉ f) (hd : d ∈ f)
    (hmid : d ∉ mid) : NoOverlap f (q :: (mid ++ [q])) := by
  constructor
  · intro x hx hne
    have hxf : q ∉ x := fun h => hq (((List.mem_tails _ _).1 hx).subset h)
    obtain ⟨c, x, rfl⟩ := List.exists_cons_of_ne_nil hne
    constructor
    · intro h
      obtain ⟨rfl, -⟩ := List.cons_prefix_cons.1 h
      exact hxf (by simp)
    · intro h
      exact hxf (h.subset (by simp))
  · intro x hx hne
    have hx := (List.mem_tails _ _).1 hx
    have hlast : x.getLast hne = q := (hx.getLast hne).trans (by simp)
    have hlast : q ∈ x := hlast ▸ List.getLast_mem hne
    constructor
    · intro h
      exact hq (h.subset hlast)
    · intro h
      have : d ∈ q :: (mid ++ [q]) := hx.subset (h.subset hd)
      simp only [List.mem_cons, List.mem_append, List.not_mem_nil, or_false] at this
      rcases this with rfl | h | rfl
      · exact hq hd
      · exact hmid h
      · exact hq hd

theorem NoMeet.of_suffix {a b x : List Char} (h : NoMeet a b) (hx : x <:+ a) : NoMeet x b := by
  intro y hy
  exact h y ((List.mem_tails _ _).2 (((List.mem_tails _ _).1 hy).trans hx))

theorem NoMeet.of_not_mem {a : List Char} {c : Char} (hc : c ∉ a) (b : List Char) : NoMeet a (c :: b) := by
  intro x hx hne
  have hx := (List.mem_tails _ _).1 hx
  obtain ⟨d, x, rfl⟩ := List.exists_cons_of_ne_nil hne
  constructor
  · intro h
    obtain ⟨rfl, -⟩ := List.cons_prefix_cons.1 h
    exact hc (hx.subset (by simp))
  · intro h
    exact hc (hx.subset (h.subset (by simp)))

theorem NoMeet.append {a b : List Char} (h : NoMeet a b) (b' : List Char) : NoMeet a (b ++ b') := by
  intro x hx hne
  obtain ⟨h1, h2⟩ := h x hx hne
  constructor
  · intro hp
    rcases List.prefix_or_prefix_of_prefix hp (List.prefix_append b b') with h | h
    · exact h1 h
    · exact h2 h
  · intro hp
    exact h2 ((List.prefix_append b b').trans hp)

/-! ## Occurrences and edits -/

/-- What may stand next to an occurrence: the neighbouring character, if there is one. -/
abbrev Beside := Option Char → Prop

/-- Anything may stand next to an occurrence. -/
def Anything : Beside := fun _ => True

/-- `f` occurs in `s`, with `Left` before it and `Right` behind it. -/
def Occurs (Left : Beside) (f : List Char) (Right : Beside) (s : List Char) : Prop :=
  ∃ u v, s = u ++ (f ++ v) ∧ Left u.getLast? ∧ Right v.head?

theorem occurs_anything_iff {f s : List Char} : Occurs Anything f Anything s ↔ f <:+: s := by
  constructor
  · rintro ⟨u, v, rfl, -, -⟩
    exact ⟨u, v, by simp⟩
  · rintro ⟨u, v, rfl⟩
    exact ⟨u, v, by simp, trivial, trivial⟩

/-- No edit takes part in an occurrence of `f`: none reaches into it, and an edit next to it leaves
its neighbours allowed. -/
structure Foreign (Edit : EditAt) (Left : Beside) (f : List Char) (Right : Beside) : Prop where
  new_ne : ∀ {b old new s}, Edit b old new s → new ≠ []
  inside : ∀ {b old new s}, Edit b old new s → ∀ {x t v}, x <:+ new → x ≠ [] → x ++ t = f ++ v →
    ¬ Right v.head?
  across : ∀ {b old new s}, Edit b old new s → ∀ {y t v}, y <:+ f → y ≠ [] → new ++ t = y ++ v →
    ¬ Right v.head?
  left : ∀ {b old new s v}, Edit b old new s → s = f ++ v → Left new.getLast? →
    Left (old.getLast?.or b)
  right : ∀ {b old new s}, Edit b old new s → b = f.getLast? → Right new.head? →
    Right (old ++ s).head?

/-- Edits whose new text cannot overlap with `f` are foreign to it, if they leave the neighbours of an
occurrence allowed. -/
theorem Foreign.of_noOverlap {Edit : EditAt} {Left Right : Beside} {f : List Char}
    (hne : ∀ {b old new s}, Edit b old new s → new ≠ [])
    (hno : ∀ {b old new s}, Edit b old new s → NoOverlap f new)
    (hl : ∀ {b old new s v}, Edit b old new s → s = f ++ v → Left new.getLast? →
      Left (old.getLast?.or b))
    (hr : ∀ {b old new s}, Edit b old new s → b = f.getLast? → Right new.head? →
      Right (old ++ s).head?) : Foreign Edit Left f Right where
  new_ne := hne
  inside e _ _ _ hx hne he := absurd he ((hno e).2.append_ne hx hne)
  across e _ _ _ hy hne he := absurd he.symm ((hno e).1.append_ne hy hne)
  left := hl
  right := hr

theorem Foreign.of_written {Edit : EditAt} {Left Right : Beside} {f written : List Char}
    (he : ∀ {b old new s}, Edit b old new s → new = written) (hne : written ≠ [])
    (hno : NoOverlap f written)
    (hl : ∀ {b old new s v}, Edit b old new s → s = f ++ v → Left written.getLast? →
      Left (old.getLast?.or b))
    (hr : ∀ {b old new s}, Edit b old new s → b = f.getLast? → Right written.head? →
      Right (old ++ s).head?) : Foreign Edit Left f Right :=
  .of_noOverlap (fun e => he e ▸ hne) (fun e => he e ▸ hno) (fun e hs h => hl e hs (he e ▸ h))
    (fun e hb h => hr e hb (he e ▸ h))

theorem Foreign.of_written_anything {Edit : EditAt} {f written : List Char}
    (he : ∀ {b old new s}, Edit b old new s → new = written) (hne : written ≠ [])
    (hno : NoOverlap f written) : Foreign Edit Anything f Anything :=
  .of_written he hne hno (fun _ _ _ => trivial) (fun _ _ _ => trivial)

theorem getLast?_or_of_ne_nil {x : List Char} (h : x ≠ []) (b : Option Char) :
    x.getLast?.or b = x.getLast? := by
  simp [List.getLast?_eq_getLast_of_ne_nil h]

theorem behind_or_inside {new t u g : List Char} (h : new ++ t = u ++ g) :
    (∃ a, u = new ++ a ∧ t = a ++ g) ∨ ∃ a, a ≠ [] ∧ new = u ++ a ∧ a ++ t = g := by
  rcases List.append_eq_append_iff.1 h with ⟨a, rfl, rfl⟩ | ⟨a, rfl, rfl⟩
  · exact .inl ⟨a, rfl, rfl⟩
  · by_cases ha : a = []
    · subst ha
      exact .inl ⟨[], by simp, by simp⟩
    · exact .inr ⟨a, ha, rfl, rfl⟩

namespace Edits

variable {Keep : KeepAt} {Edit : EditAt} {Left Right : Beside} {f : List Char} {before : Option Char}
  {s t : List Char}

/-- The part `g` at the end of an occurrence of `f`, at the front of the result, was at the front of
the source. -/
theorem starts (hF : Foreign Edit Left f Right) (h : Edits Keep Edit before s t) :
    ∀ {g v}, g <:+ f → (g = [] → before = f.getLast?) → t = g ++ v → Right v.head? →
      ∃ w, s = g ++ w ∧ Right w.head? := by
  -- `g` is the part of `f` that is still to come
  induction h with
  | nil =>
    intro g v _ _ ht hv
    obtain ⟨rfl, rfl⟩ := List.append_eq_nil_iff.1 ht.symm
    exact ⟨[], rfl, hv⟩
  | @keep b c s t _ _ ih =>
    intro g v hg hb ht hv
    cases g with
    | nil =>
      rw [List.nil_append] at ht
      subst ht
      exact ⟨c :: s, rfl, by simpa using hv⟩
    | cons d g =>
      obtain ⟨rfl, rfl⟩ := List.cons.inj ht
      obtain ⟨w, rfl, hw⟩ := ih ((List.suffix_cons c g).trans hg) (fun h => by
        obtain ⟨u, rfl⟩ := hg
        simp [h]) rfl hv
      exact ⟨w, rfl, hw⟩
  | @edit b old new s t e _ ih =>
    intro g v hg hb ht hv
    cases g with
    | nil =>
      refine ⟨old ++ s, rfl, hF.right e (hb rfl) ?_⟩
      rw [List.nil_append] at ht
      subst ht
      obtain ⟨c, new, rfl⟩ := List.exists_cons_of_ne_nil (hF.new_ne e)
      exact hv
    | cons d g => exact absurd hv (hF.across e hg (by simp) ht)

/-- An occurrence in the result comes from one in the source, which starts at a kept character. -/
theorem occurs (hf : f ≠ []) (hF : Foreign Edit Left f Right) (h : Edits Keep Edit before s t) :
    ∀ {u v b}, t = u ++ (f ++ v) → (∀ w, s = f ++ w → Left b → Left before) →
      Left (u.getLast?.or b) → Right v.head? →
      ∃ u' v', s = u' ++ (f ++ v') ∧ Left (u'.getLast?.or before) ∧ Right v'.head? ∧
        Keep (u'.getLast?.or before) (f ++ v') := by
  -- `b` stands before the result as `before` does before the source
  induction h with
  | nil => intro u v b ht; simp [hf] at ht
  | @keep before c s t k ht' ih =>
    intro u v b ht hb hu hv
    cases u with
    | nil =>
      rw [List.nil_append] at ht
      obtain ⟨w, hw, hr⟩ := starts hF (.keep k ht') (List.suffix_refl f) (fun h => absurd h hf) ht hv
      exact ⟨[], w, hw, hb w hw hu, hr, hw ▸ k⟩
    | cons d u =>
      obtain ⟨rfl, rfl⟩ := List.cons.inj ht
      obtain ⟨u', v', rfl, hl, hr, hk⟩ := ih (b := some c) rfl (fun _ _ h => h)
        (by rwa [← List.singleton_append, getLast?_append_or] at hu) hv
      refine ⟨c :: u', v', rfl, ?_, hr, ?_⟩ <;>
        rwa [← List.singleton_append, getLast?_append_or]
  | @edit before old new s t e _ ih =>
    intro u v b ht hb hu hv
    rcases behind_or_inside ht with ⟨a, rfl, ha⟩ | ⟨a, hne, rfl, ha⟩
    · rw [getLast?_append_or, getLast?_or_of_ne_nil (hF.new_ne e)] at hu
      obtain ⟨u', v', rfl, hl, hr, hk⟩ := ih ha (fun w hw => hF.left e hw) hu hv
      refine ⟨old ++ u', v', by simp, ?_, hr, ?_⟩ <;> rwa [getLast?_append_or]
    · exact absurd hv (hF.inside e (List.suffix_append u a) hne ha)

/-- What does not occur in a text does not occur after foreign edits either. -/
theorem occurs_source (h : Edits Keep Edit none s t) (hf : f ≠ []) (hF : Foreign Edit Left f Right)
    (ho : Occurs Left f Right t) : Occurs Left f Right s := by
  obtain ⟨u, v, ht, hl, hr⟩ := ho
  obtain ⟨u', v', hs, hl', hr', -⟩ :=
    occurs hf hF h (b := none) ht (fun _ _ h => h) (by rwa [Option.or_none]) hr
  exact ⟨u', v', hs, by rwa [Option.or_none] at hl', hr'⟩

theorem not_infix_result (h : Edits Keep Edit none s t) (hf : f ≠ []) (hF : Foreign Edit Anything f Anything)
    (hs : ¬ f <:+: s) : ¬ f <:+: t := by
  rw [← occurs_anything_iff] at hs ⊢
  exact fun ho => hs (h.occurs_source hf hF ho)

/-- What may not be kept does not occur after foreign edits. -/
theorem not_occurs (h : Edits Keep Edit none s t) (hf : f ≠ []) (hF : Foreign Edit Left f Right)
    (hk : ∀ b v, Left b → Right v.head? → ¬ Keep b (f ++ v)) : ¬ Occurs Left f Right t := by
  rintro ⟨u, v, ht, hl, hr⟩
  obtain ⟨u', v', -, hl', hr', k⟩ :=
    occurs hf hF h (b := none) ht (fun _ _ h => h) (by rwa [Option.or_none]) hr
  exact hk _ _ hl' hr' k

/-- A front in which no edit starts is kept. -/
theorem front {g : List Char} (hg : ∀ {b old new s}, Edit b old new s → NoMeet g old) :
    ∀ {before s t}, Edits Keep Edit before (g ++ s) t →
      ∃ before' t', t = g ++ t' ∧ Edits Keep Edit before' s t' := by
  induction g with
  | nil => exact fun {b _ t} h => ⟨b, t, rfl, h⟩
  | cons c g ih =>
    intro before s t h
    generalize hs : c :: g ++ s = s' at h
    cases h with
    | nil => cases hs
    | keep _ h =>
      obtain ⟨rfl, rfl⟩ := List.cons.inj hs
      obtain ⟨b', t', rfl, h'⟩ := ih (fun e => (hg e).of_suffix (List.suffix_cons c g)) h
      exact ⟨b', t', rfl, h'⟩
    | edit e _ => exact absurd hs ((hg e).append_ne (List.suffix_refl _) (by simp))

end Edits

end SqlDump.Text
