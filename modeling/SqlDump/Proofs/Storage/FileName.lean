import SqlDump.Proofs.Storage.Path
/-!
# File names and their extensions

What follows the last slash of a path is its last step, unless it is empty (`steps_append_component`). What follows the
last dot of a file name is its extension, if something stands in front of that dot (`extensionOf?_eq_some_iff`).
-/

namespace SqlDump.Storage

/-- What may stand in front of a file name: nothing, or something up to a slash. -/
def IsDirectoryPart (dir : List UInt8) : Prop := dir = [] ∨ dir.getLast? = some slash

/-- A component that names a file or a directory: it is not empty, holds no slash, and is none of `.` and `..`. -/
structure IsName (name : Name) : Prop where
  ne_nil : name ≠ []
  no_slash : slash ∉ name
  ne_dot : name ≠ [dot]
  ne_dots : name ≠ [dot, dot]

variable {dir : List UInt8} {name stem extension : Name}

theorem IsName.ofComponent (h : IsName name) : Step.ofComponent name = .down name := by
  unfold Step.ofComponent
  rw [if_neg h.ne_dot, if_neg h.ne_dots]

theorem steps_component (hne : name ≠ []) (hslash : slash ∉ name) :
    (Path.mk name).steps = [.ofComponent name] := by
  unfold Path.steps
  rw [splitAtSlashes_eq, List.splitOn_eq_singleton hslash]
  simp [hne]

theorem steps_append_component (hdir : IsDirectoryPart dir) (hne : name ≠ []) (hslash : slash ∉ name) :
    ∃ front, (Path.mk (dir ++ name)).steps = front ++ [.ofComponent name] := by
  rcases hdir with rfl | hlast
  · exact ⟨[], steps_component hne hslash⟩
  · obtain ⟨front, rfl⟩ := List.getLast?_eq_some_iff.1 hlast
    refine ⟨(Path.mk front).steps, ?_⟩
    rw [List.append_assoc, List.singleton_append, Path.steps_append_slash, steps_component hne hslash]

/-! ## Extensions -/

/-- What follows the last dot is an extension if something stands in front of that dot. -/
theorem extensionOf?_eq (hdot : dot ∉ extension) :
    extensionOf? (stem ++ dot :: extension) = if stem = [] then none else some extension := by
  have hbehind : ((stem ++ dot :: extension).reverse.takeWhile (· != dot)).reverse = extension := by
    rw [List.reverse_append, List.reverse_cons, List.append_assoc, List.takeWhile_append_of_pos]
    · simp
    · intro byte hbyte
      simp only [bne_iff_ne, ne_eq]
      rintro rfl
      exact hdot (List.mem_reverse.1 hbyte)
  unfold extensionOf?
  rw [hbehind, List.length_append, List.length_cons]
  by_cases hstem : stem = []
  · rw [if_pos hstem, if_neg]
    rw [hstem, List.length_nil]
    omega
  · have hlength := List.length_pos_iff.2 hstem
    rw [if_neg hstem, if_pos]
    omega

theorem extensionOf?_of_no_dot (h : dot ∉ name) : extensionOf? name = none := by
  have hbehind : (name.reverse.takeWhile (· != dot)).reverse = name := by
    have hall : ∀ byte ∈ name.reverse, (byte != dot) = true := by
      intro byte hbyte
      simp only [bne_iff_ne, ne_eq]
      rintro rfl
      exact h (List.mem_reverse.1 hbyte)
    rw [List.takeWhile_eq_self_iff.2 hall, List.reverse_reverse]
  unfold extensionOf?
  rw [hbehind, if_neg]
  omega

theorem extensionOf?_eq_some_iff : extensionOf? name = some extension ↔
    dot ∉ extension ∧ ∃ stem, stem ≠ [] ∧ name = stem ++ dot :: extension := by
  constructor
  · intro h
    by_cases hdot : dot ∈ name.reverse
    · -- the last dot is the first one from the end
      obtain ⟨behind, front, hname, hbehind⟩ := List.eq_append_cons_of_mem hdot
      have hname : name = front.reverse ++ dot :: behind.reverse := by
        rw [← List.reverse_reverse name, hname]
        simp
      have hbehind : dot ∉ behind.reverse := fun hmem => hbehind (List.mem_reverse.1 hmem)
      rw [hname, extensionOf?_eq hbehind] at h
      split at h
      case isTrue => cases h
      case isFalse hfront =>
        cases h
        exact ⟨hbehind, _, hfront, hname⟩
    · rw [extensionOf?_of_no_dot fun hmem => hdot (List.mem_reverse.2 hmem)] at h
      cases h
  · rintro ⟨hdot, stem, hstem, rfl⟩
    rw [extensionOf?_eq hdot, if_neg hstem]

end SqlDump.Storage
