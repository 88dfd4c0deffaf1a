import Mathlib.Data.List.Induction
import SqlDump.Proofs.Storage.FileName
/-!
# The last component of a path

Slashes and components `.` may trail behind the last component of a path. They take no step but to stay
(`moves_append_trailing`). Any other path has one last component (`existsUnique_lastComponent`), and this is its
file name unless it is made of dots (`fileName?_eq_some_iff`).
-/

namespace SqlDump.Storage

/-- What may trail at the end of a path: slashes and components `.`. -/
inductive IsTrailing : List UInt8 → Prop
  | nil : IsTrailing []
  | slash {tail : List UInt8} (h : IsTrailing tail) : IsTrailing (slash :: tail)
  | dot {tail : List UInt8} (h : IsTrailing tail) : IsTrailing (slash :: dot :: tail)

/-- A name is what stands behind the last slash of a path when all that trails is dropped. A component `.` trails
itself where there is a slash in front of it. -/
structure Path.LastComponent (path : Path) (name : Name) : Prop where
  ne_nil : name ≠ []
  no_slash : slash ∉ name
  splits : ∃ dir tail, path.bytes = dir ++ name ++ tail ∧ IsDirectoryPart dir ∧ IsTrailing tail ∧
    (name = [dot] → dir = [])

/-- The steps of a path that lead away from where they start. -/
def Path.moves (path : Path) : List Step := path.steps.filter (· != .stay)

variable {path : Path} {name name' : Name} {tail : List UInt8}

/-! ## What trails -/

theorem IsTrailing.append {front : List UInt8} (hfront : IsTrailing front) (htail : IsTrailing tail) :
    IsTrailing (front ++ tail) := by
  induction hfront with
  | nil => exact htail
  | slash _ ih => exact .slash ih
  | dot _ ih => exact .dot ih

theorem steps_slash (bytes : List UInt8) : (Path.mk (slash :: bytes)).steps = (Path.mk bytes).steps :=
  Path.steps_append_slash [] bytes

/-- What trails starts with a slash, so that it does not go on with the component in front of it. -/
theorem steps_append_trailing (front : List UInt8) (h : IsTrailing tail) :
    (Path.mk (front ++ tail)).steps = (Path.mk front).steps ++ (Path.mk tail).steps := by
  cases h with
  | nil => simp
  | slash _ => rw [Path.steps_append_slash, steps_slash]
  | dot _ => rw [Path.steps_append_slash, steps_slash]

theorem moves_trailing (h : IsTrailing tail) : (Path.mk tail).moves = [] := by
  unfold Path.moves
  induction h with
  | nil => rfl
  | slash _ ih => rw [steps_slash, ih]
  | dot htail ih =>
    rw [steps_slash, ← List.singleton_append, steps_append_trailing _ htail, List.filter_append, ih]
    decide

theorem moves_append_trailing (front : List UInt8) (h : IsTrailing tail) :
    (Path.mk (front ++ tail)).moves = (Path.mk front).moves := by
  have hnone := moves_trailing h
  unfold Path.moves at hnone ⊢
  rw [steps_append_trailing front h, List.filter_append, hnone, List.append_nil]

/-! ## One last component -/

/-- The last step that leads away is that of the last component, if this is no `.`. -/
theorem Path.LastComponent.getLast?_moves (h : path.LastComponent name) :
    path.moves.getLast? = if name = [dot] then none else some (.ofComponent name) := by
  obtain ⟨dir, tail, hbytes, hdir, htail, hdot⟩ := h.splits
  obtain ⟨bytes⟩ := path
  subst hbytes
  rw [moves_append_trailing _ htail]
  split
  case isTrue hname =>
    subst hname
    rw [hdot rfl]
    decide
  case isFalse hname =>
    obtain ⟨front, hsteps⟩ := steps_append_component hdir h.ne_nil h.no_slash
    have hmove : (Step.ofComponent name != .stay) = true := by
      unfold Step.ofComponent
      rw [if_neg hname]
      split <;> rfl
    unfold moves
    rw [hsteps, List.filter_append, List.filter_cons_of_pos (by exact hmove), List.filter_nil, List.getLast?_concat]

theorem ofComponent_inj (hname : name ≠ [dot]) (hname' : name' ≠ [dot])
    (h : Step.ofComponent name = Step.ofComponent name') : name = name' := by
  unfold Step.ofComponent at h
  rw [if_neg hname, if_neg hname'] at h
  split at h <;> split at h
  case isTrue.isTrue hdots hdots' => rw [hdots, hdots']
  case isFalse.isFalse => exact Step.down.inj h
  all_goals cases h

theorem Path.LastComponent.unique (h : path.LastComponent name) (h' : path.LastComponent name') :
    name = name' := by
  have hlast := h.getLast?_moves
  rw [h'.getLast?_moves] at hlast
  split at hlast <;> split at hlast
  case isTrue.isTrue hname' hname => rw [hname, hname']
  case isFalse.isFalse hname' hname => exact (ofComponent_inj hname' hname (Option.some.inj hlast)).symm
  all_goals cases hlast

theorem Path.LastComponent.append {bytes : List UInt8} (h : (Path.mk bytes).LastComponent name)
    (htail : IsTrailing tail) : (Path.mk (bytes ++ tail)).LastComponent name where
  ne_nil := h.ne_nil
  no_slash := h.no_slash
  splits := by
    obtain ⟨dir, tail', hbytes, hdir, htail', hdot⟩ := h.splits
    refine ⟨dir, tail' ++ tail, ?_, hdir, htail'.append htail, hdot⟩
    show bytes ++ tail = _
    rw [show bytes = _ from hbytes, List.append_assoc]

/-- A path is cut at its last slash. -/
theorem exists_directoryPart (bytes : List UInt8) :
    ∃ dir name, bytes = dir ++ name ∧ IsDirectoryPart dir ∧ slash ∉ name := by
  induction bytes using List.reverseRecOn with
  | nil => exact ⟨[], [], rfl, .inl rfl, by simp⟩
  | append_singleton bytes byte ih =>
    by_cases hbyte : byte = slash
    · exact ⟨bytes ++ [byte], [], by simp, .inr (by simp [hbyte]), by simp⟩
    · obtain ⟨dir, name, rfl, hdir, hname⟩ := ih
      exact ⟨dir, name ++ [byte], by simp, hdir, by simp [hname, Ne.symm hbyte]⟩

theorem trailing_or_lastComponent (bytes : List UInt8) :
    IsTrailing bytes ∨ ∃ name, (Path.mk bytes).LastComponent name := by
  induction hlength : bytes.length using Nat.strong_induction_on generalizing bytes with
  | _ n ih =>
    obtain ⟨dir, name, rfl, hdir, hslash⟩ := exists_directoryPart bytes
    by_cases htrails : name = [] ∨ name = [dot]
    case neg =>
      rw [not_or] at htrails
      exact .inr ⟨name, htrails.1, hslash, dir, [], by simp, hdir, .nil, fun h => absurd h htrails.2⟩
    case pos =>
      rcases hdir with rfl | hlast
      · rcases htrails with rfl | rfl
        · exact .inl .nil
        · exact .inr ⟨[dot], by simp, hslash, [], [], rfl, .inl rfl, .nil, fun _ => rfl⟩
      · obtain ⟨front, rfl⟩ := List.getLast?_eq_some_iff.1 hlast
        -- the component trails with its slash, and what is in front of them is shorter
        have htail : IsTrailing (slash :: name) := by
          rcases htrails with rfl | rfl
          · exact .slash .nil
          · exact .dot .nil
        have hshort : front.length < n := by
          rw [← hlength, List.length_append, List.length_append, List.length_singleton]
          omega
        rw [List.append_assoc, List.singleton_append]
        rcases ih _ hshort front rfl with hfront | ⟨name', hname'⟩
        · exact .inl (hfront.append htail)
        · exact .inr ⟨name', hname'.append htail⟩

/-- A path has one last component, unless all of it trails. -/
theorem existsUnique_lastComponent : (∃! name, path.LastComponent name) ↔ ¬ IsTrailing path.bytes := by
  constructor
  · rintro ⟨name, h, -⟩ htrails
    have hlast := h.getLast?_moves
    rw [moves_trailing htrails, List.getLast?_nil] at hlast
    split at hlast
    case isFalse => cases hlast
    case isTrue hname =>
      -- the path starts with the dot, and what trails does not
      obtain ⟨dir, tail, hbytes, -, -, hdot⟩ := h.splits
      rw [hbytes, hdot hname, hname] at htrails
      cases htrails
  · intro htrails
    obtain ⟨name, h⟩ := (trailing_or_lastComponent path.bytes).resolve_left htrails
    exact ⟨name, h, fun name' h' => h'.unique h⟩

/-! ## File names and extensions -/

theorem fileName?_append_trailing (front : List UInt8) (h : IsTrailing tail) :
    (Path.mk (front ++ tail)).fileName? = (Path.mk front).fileName? := by
  have hmoves := moves_append_trailing front h
  unfold Path.moves at hmoves
  unfold Path.fileName?
  rw [hmoves]

theorem Path.LastComponent.fileName?_eq (h : path.LastComponent name) :
    path.fileName? = if name = [dot] ∨ name = [dot, dot] then none else some name := by
  have hlast := h.getLast?_moves
  unfold Path.moves at hlast
  unfold Path.fileName?
  rw [hlast]
  by_cases hdot : name = [dot]
  · rw [if_pos hdot, if_pos (.inl hdot)]
  · rw [if_neg hdot]
    unfold Step.ofComponent
    rw [if_neg hdot]
    by_cases hdots : name = [dot, dot]
    · rw [if_pos hdots, if_pos (.inr hdots)]
    · rw [if_neg hdots, if_neg (not_or.2 ⟨hdot, hdots⟩)]

/-- The file name of a path is its last component, if this is none of `.` and `..`. -/
theorem fileName?_eq_some_iff :
    path.fileName? = some name ↔ path.LastComponent name ∧ name ≠ [dot] ∧ name ≠ [dot, dot] := by
  constructor
  · intro h
    rcases trailing_or_lastComponent path.bytes with htrails | ⟨name', h'⟩
    · have hnone : path.fileName? = none := fileName?_append_trailing [] htrails
      rw [hnone] at h
      cases h
    · rw [h'.fileName?_eq] at h
      split at h
      case isTrue => cases h
      case isFalse hdots =>
        cases h
        exact ⟨h', not_or.1 hdots⟩
  · rintro ⟨h, hdots⟩
    rw [h.fileName?_eq, if_neg (not_or.2 hdots)]

theorem extension?_append_trailing (front : List UInt8) (h : IsTrailing tail) :
    (Path.mk (front ++ tail)).extension? = (Path.mk front).extension? := by
  unfold Path.extension?
  rw [fileName?_append_trailing front h]

/-- What stands in front of the last dot does not matter, as long as something does. -/
theorem lastComponent_append {dir : List UInt8} {stem extension : Name} (hdir : IsDirectoryPart dir)
    (hstem : stem ≠ [] ∧ slash ∉ stem) (hextension : slash ∉ extension) (htail : IsTrailing tail) :
    (Path.mk (dir ++ (stem ++ dot :: extension) ++ tail)).LastComponent (stem ++ dot :: extension) where
  ne_nil := by simp
  no_slash := by
    have hother : slash ≠ dot := by decide
    simp [hstem.2, hextension, hother]
  splits := by
    refine ⟨dir, tail, rfl, hdir, htail, fun h => ?_⟩
    have hlength := congrArg List.length h
    have hpos := List.length_pos_iff.2 hstem.1
    rw [List.length_append, List.length_cons, List.length_singleton] at hlength
    omega

end SqlDump.Storage
