import SqlDump.Proofs.Rule.Border
import SqlDump.Proofs.Text.Atoms
/-!
# Slots for values

A `Slot` says between which delimiters one value is written for another. Replacing its text is a
sweep (`Slot.rewrite_eq`): a match is an atom between two delimiters, of which the left one must
not belong to the match before. Slots that share neither values nor delimiters in full can be
rewritten in any order, and a list of them hits the atoms of the text as it was at first
(`atoms_rewriteAll`).
-/

namespace SqlDump.Rule

open Text

/-- A value between two delimiters, of which the left one follows `stem`, and what is written for
it. -/
structure Slot where
  stem : List Char
  left : Char
  old : List Char
  new : List Char
  right : Char
  stem_plain : Plain stem := by decide
  left_delimits : isDelimiter left = true := by decide
  old_plain : Plain old := by decide
  new_plain : Plain new := by decide
  right_delimits : isDelimiter right = true := by decide

namespace Slot

variable (p q : Slot)

/-- The text that is looked for. -/
def sought : List Char := p.stem ++ p.left :: (p.old ++ [p.right])

/-- The text that is written for it. -/
def written : List Char := p.stem ++ p.left :: (p.new ++ [p.right])

/-- Writes the new value in every slot of a text. -/
def rewrite (s : List Char) : List Char := replaceAll (literal p.sought p.written) s

/-- What is written for a text behind the stem and the left delimiter. -/
def rewriteBehind (s : List Char) : List Char :=
  if p.old ++ [p.right] <+: s then p.new ++ p.right :: p.rewrite (s.drop (p.old.length + 1))
  else p.rewrite s

/-- Whether an atom is in the slot. Its left delimiter is `free` if it follows the stem and belongs to
no match. -/
def hits (free : Bool) (a : Atom) : Bool :=
  free && a.before == some p.left && a.text == p.old && a.behind == some p.right

/-- The slots of a text, from left to right. A match takes its right delimiter, which then cannot be
the left one of another match. -/
def sweep : Sweep Bool where
  next free a := !(p.hits free a && p.left == p.right) && p.stem.isSuffixOf a.text
  write free a := if p.hits free a then p.new else a.text
  plain free a ha := by
    split
    · exact p.new_plain
    · exact ha

/-! ## Replacing the text of a slot -/

theorem sought_ne_nil : p.sought ≠ [] := by simp [sought]

theorem delimiters_sought : delimiters p.sought = [p.left, p.right] := by
  rw [sought, delimiters_cons _ p.stem_plain p.left_delimits,
    delimiters_cons [] p.old_plain p.right_delimits]
  rfl

theorem not_infix_of_delimiters {s : List Char} (hs : (delimiters s).length < 2) : ¬ p.sought <:+: s := by
  intro h
  have hle := (h.sublist.filter isDelimiter).length_le
  have htwo : (p.sought.filter isDelimiter).length = 2 := congrArg List.length p.delimiters_sought
  exact absurd (htwo ▸ hle) (Nat.not_le.2 hs)

theorem rewrite_plain {w : List Char} (hw : Plain w) : p.rewrite w = w :=
  (literal_opens _ p.sought_ne_nil).replaceAll_eq_self
    (p.not_infix_of_delimiters (by simp [delimiters_plain hw]))

theorem apart_of_miss {w s : List Char} {c : Char} (hw : Plain w) (hc : isDelimiter c = true)
    (h : ¬ (p.stem <:+ w ∧ c = p.left ∧ p.old ++ [p.right] <+: s)) : Apart p.sought (w ++ [c]) s := by
  intro v y hv hne _ hvw hys
  -- what lies before the border ends with its only delimiter
  rcases List.suffix_concat_iff.1 hvw with rfl | ⟨u, rfl, hu⟩
  · exact hne rfl
  · have hplain : Plain u := fun d hd => hw d (hu.subset hd)
    have hsplit : p.stem ++ p.left :: (p.old ++ [p.right]) = u ++ c :: y := by simpa [sought] using hv
    obtain ⟨rfl, rfl, rfl⟩ := plain_append_cons_inj p.stem_plain hplain p.left_delimits hc hsplit
    exact h ⟨hu, rfl, hys⟩

theorem rewrite_miss {w s : List Char} {c : Char} (hw : Plain w) (hc : isDelimiter c = true)
    (h : ¬ (p.stem <:+ w ∧ c = p.left ∧ p.old ++ [p.right] <+: s)) :
    p.rewrite (w ++ c :: s) = w ++ c :: p.rewrite s := by
  have hone : (delimiters (w ++ [c])).length < 2 := by
    rw [delimiters_cons [] hw hc]
    exact Nat.one_lt_two
  have hcut := (literal_opens p.written p.sought_ne_nil).replaceAll_append
    (p.not_infix_of_delimiters hone) (p.apart_of_miss hw hc h)
  simpa [rewrite] using hcut

theorem apart_before_match {u : List Char} (hu : Plain u) (s : List Char) :
    Apart p.sought u (p.sought ++ s) := by
  intro v y hv hne _ hvu ⟨z, hz⟩
  have hplain : Plain v := fun d hd => hu d (hvu.subset hd)
  obtain ⟨a, hstem, rfl⟩ : ∃ a, p.stem = v ++ a ∧ y = a ++ p.left :: (p.old ++ [p.right]) := by
    rcases List.append_eq_append_iff.1 hv with ⟨a, rfl, ha⟩ | ⟨a, hstem, rfl⟩
    · cases a with
      | nil => exact ⟨[], by simp, by simpa using ha.symm⟩
      | cons d a =>
        obtain ⟨rfl, -⟩ := List.cons.inj ha
        have hleft := hplain p.left (by simp)
        rw [p.left_delimits] at hleft
        cases hleft
    · exact ⟨a, hstem, rfl⟩
  -- a match that starts in `u` has its left delimiter where the match behind `u` has its own
  have ha : Plain a := fun d hd => p.stem_plain d (by simp [hstem, hd])
  have hsplit : a ++ p.left :: (p.old ++ [p.right] ++ z) = p.stem ++ p.left :: (p.old ++ [p.right] ++ s) := by
    simpa [sought] using hz
  obtain ⟨rfl, -, -⟩ := plain_append_cons_inj ha p.stem_plain p.left_delimits p.left_delimits hsplit
  exact hne (List.self_eq_append_left.1 hstem)

theorem rewrite_hit {w : List Char} (hw : Plain w) (hstem : p.stem <:+ w) (s : List Char) :
    p.rewrite (w ++ p.left :: (p.old ++ p.right :: s)) =
      w ++ p.left :: (p.new ++ p.right :: p.rewrite s) := by
  obtain ⟨u, rfl⟩ := hstem
  have hopens := literal_opens p.written p.sought_ne_nil
  have hu : Plain u := fun d hd => hw d (List.mem_append_left _ hd)
  have hno : ¬ p.sought <:+: u := p.not_infix_of_delimiters (by simp [delimiters_plain hu])
  have hhit : literal p.sought p.written none (p.sought ++ s) = some ⟨p.sought.length, p.written⟩ := by
    simp [literal]
  have hbefore := hopens.replaceAll_append hno (p.apart_before_match hu s)
  rw [hopens.replaceAll_hit p.sought_ne_nil hhit] at hbefore
  simpa [rewrite, sought, written] using hbefore

theorem rewrite_cons {w : List Char} {c : Char} (hw : Plain w) (hc : isDelimiter c = true) (s : List Char) :
    p.rewrite (w ++ c :: s) =
      w ++ c :: if p.stem <:+ w ∧ c = p.left then p.rewriteBehind s else p.rewrite s := by
  by_cases h : p.stem <:+ w ∧ c = p.left
  · obtain ⟨hstem, rfl⟩ := h
    rw [if_pos ⟨hstem, rfl⟩, rewriteBehind]
    split
    case isTrue hmatch =>
      obtain ⟨s, rfl⟩ := hmatch
      have hdrop : (p.old ++ [p.right] ++ s).drop (p.old.length + 1) = s := by
        simp
      rw [hdrop]
      simpa using p.rewrite_hit hw hstem s
    case isFalse hmatch => exact p.rewrite_miss hw hc fun h => hmatch h.2.2
  · rw [if_neg h, p.rewrite_miss hw hc fun hmatch => h ⟨hmatch.1, hmatch.2.1⟩]

theorem rewriteBehind_plain {w : List Char} (hw : Plain w) : p.rewriteBehind w = w := by
  have hmiss : ¬ p.old ++ [p.right] <+: w := by
    intro h
    have hright := hw p.right (h.subset (by simp))
    rw [p.right_delimits] at hright
    cases hright
  rw [rewriteBehind, if_neg hmiss, p.rewrite_plain hw]

theorem rewriteBehind_cons {w : List Char} {c : Char} (hw : Plain w) (hc : isDelimiter c = true)
    (s : List Char) : p.rewriteBehind (w ++ c :: s) =
      if w = p.old ∧ c = p.right then p.new ++ c :: p.rewrite s else p.rewrite (w ++ c :: s) := by
  have hiff : p.old ++ [p.right] <+: w ++ c :: s ↔ w = p.old ∧ c = p.right := by
    constructor
    · rintro ⟨z, hz⟩
      have hsplit : w ++ c :: s = p.old ++ p.right :: z := by simpa using hz.symm
      obtain ⟨hold, hright, -⟩ := plain_append_cons_inj hw p.old_plain hc p.right_delimits hsplit
      exact ⟨hold, hright⟩
    · rintro ⟨rfl, rfl⟩
      exact ⟨s, by simp⟩
  rw [rewriteBehind]
  by_cases h : w = p.old ∧ c = p.right
  · rw [if_pos (hiff.2 h), if_pos h]
    obtain ⟨rfl, rfl⟩ := h
    simp
  · rw [if_neg fun hmatch => h (hiff.1 hmatch), if_neg h]

/-- Behind a free left delimiter a sweep writes what the replacement writes there. -/
theorem joinAtoms_run_sweep (s : List Char) : ∀ (before : Option Char) (free : Bool),
    joinAtoms (p.sweep.run free (atomsFrom before [] s)) =
      if free = true ∧ before = some p.left then p.rewriteBehind s else p.rewrite s := by
  induction s using atom_induction with
  | last w hw =>
    intro before free
    have hmiss : p.hits free ⟨before, w, none⟩ = false := by simp [hits]
    simp [atomsFrom_plain before hw, sweep, hmiss, p.rewrite_plain hw, p.rewriteBehind_plain hw]
  | cons w c s hw hc ih =>
    intro before free
    rw [atomsFrom_cons before s hw hc, Sweep.run_cons, joinAtoms_cons, ih, p.rewriteBehind_cons hw hc,
      p.rewrite_cons hw hc]
    by_cases h : (free = true ∧ before = some p.left) ∧ w = p.old ∧ c = p.right
    · obtain ⟨⟨rfl, rfl⟩, rfl, rfl⟩ := h
      -- the match takes the delimiter behind it, which no other match can then start with
      by_cases hsame : p.left = p.right
      · simp [sweep, hits, hsame]
      · simp [sweep, hits, Ne.symm hsame]
    · have hmiss : p.hits free ⟨before, w, some c⟩ = false := by
        refine Bool.eq_false_iff.2 fun hhit => h ?_
        simpa [hits, and_assoc] using hhit
      have hkeep : (if free = true ∧ before = some p.left then
            if w = p.old ∧ c = p.right then p.new ++ c :: p.rewrite s
            else w ++ c :: if p.stem <:+ w ∧ c = p.left then p.rewriteBehind s else p.rewrite s
          else w ++ c :: if p.stem <:+ w ∧ c = p.left then p.rewriteBehind s else p.rewrite s) =
          w ++ c :: if p.stem <:+ w ∧ c = p.left then p.rewriteBehind s else p.rewrite s := by
        split
        case isTrue hfree => exact if_neg fun hmatch => h ⟨hfree, hmatch⟩
        case isFalse => rfl
      simp [sweep, hmiss, hkeep]

/-- Replacing the text of a slot is a sweep. -/
theorem rewrite_eq (s : List Char) : p.rewrite s = p.sweep.apply true s := by
  rw [Sweep.apply, atoms, joinAtoms_run_sweep, if_neg fun h => by cases h.2]

/-! ## Several slots -/

/-- The slots differ in their value or in a delimiter, and neither looks at what the other one
writes. -/
def Distinct : Prop :=
  (p.old ≠ q.old ∨ p.left ≠ q.left ∨ p.right ≠ q.right) ∧ (p.new ≠ q.old ∧ q.new ≠ p.old) ∧
    p.stem.isSuffixOf q.new = p.stem.isSuffixOf q.old ∧ q.stem.isSuffixOf p.new = q.stem.isSuffixOf p.old

instance : Decidable (Distinct p q) := inferInstanceAs (Decidable (_ ∧ _))

variable {p q}

theorem hits_iff {free : Bool} {a : Atom} : p.hits free a = true ↔
    free = true ∧ a.before = some p.left ∧ a.text = p.old ∧ a.behind = some p.right := by
  simp [hits, and_assoc]

theorem write_of_miss {free : Bool} {a : Atom} (h : p.hits free a = false) : p.sweep.write free a = a.text :=
  if_neg (by simp [h])

theorem Distinct.symm (h : p.Distinct q) : q.Distinct p := by
  obtain ⟨hdiffer, hnew, hstem⟩ := h
  exact ⟨hdiffer.imp Ne.symm (Or.imp Ne.symm Ne.symm), hnew.symm, hstem.symm⟩

/-- Where one of two slots is hit, the other one is missed, both before and after the value is
written. -/
theorem Distinct.miss (h : p.Distinct q) {a : Atom} {free : Bool} (hq : q.hits free a = true) (free' : Bool) :
    p.hits free' a = false ∧ p.hits free' (a.withText q.new) = false := by
  obtain ⟨hdiffer, ⟨-, hnew⟩, -⟩ := h
  obtain ⟨-, hleft, hold, hright⟩ := hits_iff.1 hq
  constructor
  · refine Bool.eq_false_iff.2 fun hp => ?_
    obtain ⟨-, hleft', hold', hright'⟩ := hits_iff.1 hp
    rcases hdiffer with hdiffer | hdiffer | hdiffer
    · exact hdiffer (hold'.symm.trans hold)
    · exact hdiffer (Option.some.inj (hleft'.symm.trans hleft))
    · exact hdiffer (Option.some.inj (hright'.symm.trans hright))
  · exact Bool.eq_false_iff.2 fun hp => hnew (hits_iff.1 hp).2.2.1

theorem Distinct.hits_written (h : p.Distinct q) (free free' : Bool) (a : Atom) :
    p.hits free (a.withText (q.sweep.write free' a)) = p.hits free a := by
  by_cases hq : q.hits free' a = true
  · obtain ⟨hmiss, hmiss'⟩ := h.miss hq free
    have hwrite : q.sweep.write free' a = q.new := if_pos hq
    rw [hwrite, hmiss, hmiss']
  · rw [write_of_miss (Bool.eq_false_iff.2 hq), Atom.withText_self]

theorem Distinct.next_written (h : p.Distinct q) (free free' : Bool) (a : Atom) :
    p.sweep.next free (a.withText (q.sweep.write free' a)) = p.sweep.next free a := by
  have hstem : p.stem.isSuffixOf (q.sweep.write free' a) = p.stem.isSuffixOf a.text := by
    by_cases hq : q.hits free' a = true
    · have hwrite : q.sweep.write free' a = q.new := if_pos hq
      rw [hwrite, (hits_iff.1 hq).2.2.1]
      exact h.2.2.1
    · rw [write_of_miss (Bool.eq_false_iff.2 hq)]
  show (!(p.hits free (a.withText (q.sweep.write free' a)) && p.left == p.right) &&
    p.stem.isSuffixOf (q.sweep.write free' a)) = _
  rw [h.hits_written, hstem]
  rfl

/-- Distinct slots may be rewritten in any order. -/
theorem Distinct.independent (h : p.Distinct q) : p.sweep.Independent q.sweep where
  next_left free free' a := h.next_written free free' a
  next_right free free' a := h.symm.next_written free' free a
  write_comm free free' a := by
    by_cases hp : p.hits free a = true
    · have hwrite : p.sweep.write free a = p.new := if_pos hp
      obtain ⟨hmiss, hmiss'⟩ := h.symm.miss hp free'
      rw [hwrite, write_of_miss hmiss, write_of_miss hmiss', Atom.withText_self, hwrite]
      rfl
    · have hp := Bool.eq_false_iff.2 hp
      have hp' := h.hits_written free free' a
      rw [hp] at hp'
      rw [write_of_miss hp', write_of_miss hp, Atom.withText_self]
      rfl

/-- What is written for an atom behind `earlier` ones: the value of the first slot that it is in. -/
def writeFirst (slots : List Slot) (earlier : List Atom) (a : Atom) : List Char :=
  match slots.find? fun p => p.hits (p.sweep.after true earlier) a with
  | some p => p.new
  | none => a.text

theorem writeFirst_cons (p : Slot) (slots : List Slot) (earlier : List Atom) (a : Atom) :
    writeFirst (p :: slots) earlier a =
      if p.hits (p.sweep.after true earlier) a then p.new else writeFirst slots earlier a := by
  unfold writeFirst
  rw [List.find?_cons]
  cases p.hits (p.sweep.after true earlier) a <;> rfl

theorem writeFirst_of_miss {slots : List Slot} {earlier : List Atom} {a : Atom}
    (h : ∀ q ∈ slots, q.hits (q.sweep.after true earlier) a = false) :
    writeFirst slots earlier a = a.text := by
  have hnone : (slots.find? fun q => q.hits (q.sweep.after true earlier) a) = none :=
    List.find?_eq_none.2 fun q hq => by simp [h q hq]
  unfold writeFirst
  rw [hnone]

theorem writeFirst_congr {slots : List Slot} {earlier earlier' : List Atom} (a : Atom)
    (h : ∀ q ∈ slots, q.sweep.after true earlier' = q.sweep.after true earlier) :
    writeFirst slots earlier' a = writeFirst slots earlier a := by
  have hfind : (slots.find? fun q => q.hits (q.sweep.after true earlier') a) =
      slots.find? fun q => q.hits (q.sweep.after true earlier) a := by
    apply List.find?_congr
    intro q hq
    rw [h q hq]
  unfold writeFirst
  rw [hfind]

/-- Distinct slots do not see that another one was rewritten before. -/
theorem writeFirst_run {slots : List Slot} (h : ∀ q ∈ slots, p.Distinct q) (earlier : List Atom) (a : Atom) :
    writeFirst slots (p.sweep.run true earlier)
        (a.withText (p.sweep.write (p.sweep.after true earlier) a)) =
      writeFirst (p :: slots) earlier a := by
  by_cases hp : p.hits (p.sweep.after true earlier) a = true
  · have hwrite : p.sweep.write (p.sweep.after true earlier) a = p.new := if_pos hp
    rw [writeFirst_cons, if_pos hp, hwrite]
    exact writeFirst_of_miss fun q hq => ((h q hq).symm.miss hp _).2
  · rw [writeFirst_cons, if_neg hp, write_of_miss (Bool.eq_false_iff.2 hp), Atom.withText_self]
    exact writeFirst_congr a fun q hq => (h q hq).symm.independent.after_run earlier true true

/-- Rewrites several slots, one after another. -/
def rewriteAll (slots : List Slot) (s : List Char) : List Char := slots.foldl (fun s p => p.rewrite s) s

@[simp] theorem rewriteAll_cons (p : Slot) (slots : List Slot) (s : List Char) :
    rewriteAll (p :: slots) s = rewriteAll slots (p.rewrite s) := rfl

/-- Distinct slots are rewritten where they stand in the text as it was at first. -/
theorem atoms_rewriteAll {slots : List Slot} (h : slots.Pairwise Distinct) (s : List Char) :
    atoms (rewriteAll slots s) =
      (atoms s).mapIdx fun i a => a.withText (writeFirst slots ((atoms s).take i) a) := by
  induction slots generalizing s with
  | nil =>
    apply List.ext_getElem?
    intro i
    simp [rewriteAll, writeFirst]
  | cons p slots ih =>
    obtain ⟨hp, hslots⟩ := List.pairwise_cons.1 h
    have hatoms : atoms (p.rewrite s) = p.sweep.run true (atoms s) := by
      rw [rewrite_eq, Sweep.atoms_apply]
    apply List.ext_getElem?
    intro i
    rw [rewriteAll_cons, ih hslots, hatoms, List.getElem?_mapIdx, List.getElem?_mapIdx,
      Sweep.getElem?_run, Sweep.take_run, Option.map_map]
    congr 1
    funext a
    exact congrArg a.withText (writeFirst_run hp _ a)

/-- What each of the slots keeps, all of them keep. -/
theorem rewriteAll_keeps {β : Type} {g : List Char → β} {slots : List Slot}
    (h : ∀ p ∈ slots, ∀ s, g (p.rewrite s) = g s) : ∀ s, g (rewriteAll slots s) = g s := by
  induction slots with
  | nil => intro s; rfl
  | cons p slots ih =>
    obtain ⟨hp, hslots⟩ := List.forall_mem_cons.1 h
    intro s
    rw [rewriteAll_cons, ih hslots, hp]

theorem delimiters_rewriteAll (slots : List Slot) (s : List Char) :
    delimiters (rewriteAll slots s) = delimiters s := by
  apply rewriteAll_keeps
  intro p _ s
  rw [rewrite_eq, Sweep.delimiters_apply]

/-- What may change places with each of the slots, may do so with all of them. -/
theorem rewriteAll_comm {rule : List Char → List Char} {slots : List Slot}
    (h : ∀ p ∈ slots, ∀ s, p.rewrite (rule s) = rule (p.rewrite s)) :
    ∀ s, rewriteAll slots (rule s) = rule (rewriteAll slots s) := by
  induction slots with
  | nil => intro s; rfl
  | cons p slots ih =>
    obtain ⟨hp, hslots⟩ := List.forall_mem_cons.1 h
    intro s
    rw [rewriteAll_cons, rewriteAll_cons, hp, ih hslots]

theorem Distinct.rewrite_comm (h : p.Distinct q) (s : List Char) :
    p.rewrite (q.rewrite s) = q.rewrite (p.rewrite s) := by
  simp only [rewrite_eq, h.independent.apply_comm]

end Slot

end SqlDump.Rule
