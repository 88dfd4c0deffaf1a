import Mathlib.Data.List.TakeWhile
import SqlDump.Storage.Path
/-!
# The steps of a path and of its parent

Slashes cut a path into steps, so the steps of what stands in front of a slash come first
(`steps_append_slash`). Taking the parent of a path drops components at its end only: its steps start the
steps of the path (`steps_parent`), and both start at the same directory (`isAbsolute_parent`).
-/

namespace SqlDump.Storage

theorem splitAtSlashes_eq (bytes : List UInt8) : splitAtSlashes bytes = bytes.splitOn slash := by
  induction bytes with
  | nil => rfl
  | cons byte bytes ih =>
    obtain ⟨part, more, hs⟩ := List.exists_cons_of_ne_nil (List.splitOn_ne_nil slash bytes)
    rw [List.splitOn_cons_eq_if_modifyHead, hs]
    rw [hs] at ih
    unfold splitAtSlashes at ih ⊢
    rw [List.foldr_cons, ih]
    simp

namespace Path

@[simp] theorem steps_nil : (Path.mk []).steps = [] := rfl

theorem steps_append_slash (front back : List UInt8) :
    (Path.mk (front ++ slash :: back)).steps = (Path.mk front).steps ++ (Path.mk back).steps := by
  unfold steps
  rw [splitAtSlashes_eq, splitAtSlashes_eq, splitAtSlashes_eq]
  have hsplit : (front ++ slash :: back).splitOn slash = front.splitOn slash ++ back.splitOn slash :=
    List.splitOnP_append_cons front back (by simp)
  rw [hsplit, List.filter_append, List.map_append]

/-! ## What a parent keeps -/

theorem steps_trimEndReversed (bytes : List UInt8) :
    (Path.mk (trimEndReversed bytes).reverse).steps <+: (Path.mk bytes.reverse).steps := by
  fun_induction trimEndReversed bytes with
  | case1 => exact List.prefix_refl _
  | case2 byte => exact List.prefix_refl _
  | case3 next rest ih =>
    refine ih.trans ?_
    rw [List.reverse_cons (a := slash), steps_append_slash]
    exact List.prefix_append _ _
  | case4 byte next rest hbyte hdot ih =>
    refine ih.trans ?_
    obtain ⟨rfl, rfl⟩ := hdot
    have hlong : (dot :: slash :: rest).reverse = rest.reverse ++ slash :: [dot] := by simp
    rw [hlong, List.reverse_cons, steps_append_slash, steps_append_slash]
    exact List.prefix_append_right_inj _ |>.2 (List.nil_prefix)
  | case5 byte next rest => exact List.prefix_refl _

theorem getLast?_trimEndReversed (bytes : List UInt8) :
    (trimEndReversed bytes).getLast? = bytes.getLast? := by
  fun_induction trimEndReversed bytes with
  | case1 => rfl
  | case2 byte => rfl
  | case3 next rest ih => rw [ih, List.getLast?_cons_cons]
  | case4 byte next rest hbyte hdot ih => rw [ih, List.getLast?_cons_cons]
  | case5 byte next rest => rfl

/-- What stands in front of the last slash, given from its end. -/
theorem dropWhile_slash_cases (bytes : List UInt8) :
    bytes.dropWhile (· != slash) = [] ∧ bytes.getLast? ≠ some slash ∨
    ∃ name front, bytes = name ++ slash :: front ∧ bytes.dropWhile (· != slash) = slash :: front := by
  cases h : bytes.dropWhile (· != slash) with
  | nil =>
    refine .inl ⟨rfl, fun hlast => ?_⟩
    have hslash := List.dropWhile_eq_nil_iff.1 h slash (List.mem_of_getLast? hlast)
    simp at hslash
  | cons byte front =>
    have hbyte : byte = slash := by
      have := List.head?_dropWhile_not (· != slash) bytes
      simpa [h] using this
    subst hbyte
    refine .inr ⟨bytes.takeWhile (· != slash), front, ?_, rfl⟩
    rw [← h, List.takeWhile_append_dropWhile]

theorem parent?_eq_some {p parent : Path} (h : p.parent? = some parent) :
    parent.bytes = (trimEndReversed ((trimEndReversed p.bytes.reverse).dropWhile (· != slash))).reverse := by
  unfold parent? at h
  split at h
  · cases h
  · split at h
    · cases h
    · cases h
      rfl

theorem steps_dropWhile_slash (bytes : List UInt8) :
    (Path.mk (bytes.dropWhile (· != slash)).reverse).steps <+: (Path.mk bytes.reverse).steps := by
  rcases dropWhile_slash_cases bytes with ⟨h, -⟩ | ⟨name, front, hbytes, h⟩
  · rw [h]
    exact List.nil_prefix
  · have hrev : bytes.reverse = front.reverse ++ slash :: name.reverse := by simp [hbytes]
    rw [h, hrev, List.reverse_cons, steps_append_slash, steps_append_slash, steps_nil, List.append_nil]
    exact List.prefix_append _ _

/-- The steps of the parent start the steps of a path. -/
theorem steps_parent {p parent : Path} (h : p.parent? = some parent) : parent.steps <+: p.steps := by
  have hbytes := parent?_eq_some h
  obtain ⟨bytes⟩ := parent
  obtain ⟨full⟩ := p
  subst hbytes
  have hname := steps_dropWhile_slash (trimEndReversed full.reverse)
  have hend := steps_trimEndReversed full.reverse
  rw [List.reverse_reverse] at hend
  exact (steps_trimEndReversed _).trans (hname.trans hend)

theorem isAbsolute_parent {p parent : Path} (h : p.parent? = some parent) :
    parent.isAbsolute = p.isAbsolute := by
  have hhead : parent.bytes.head? = ((trimEndReversed p.bytes.reverse).dropWhile (· != slash)).getLast? := by
    rw [parent?_eq_some h, List.head?_reverse, getLast?_trimEndReversed]
  have hlast : (trimEndReversed p.bytes.reverse).getLast? = p.bytes.head? := by
    rw [getLast?_trimEndReversed, List.getLast?_reverse]
  unfold isAbsolute
  rw [hhead]
  rcases dropWhile_slash_cases (trimEndReversed p.bytes.reverse) with ⟨hd, hno⟩ | ⟨name, front, hbytes, hd⟩
  · rw [hlast] at hno
    rw [hd, Bool.eq_iff_iff]
    simpa using hno
  · rw [hd, ← hlast, hbytes, List.getLast?_append]
    simp [List.getLast?_cons]

end Path

end SqlDump.Storage
