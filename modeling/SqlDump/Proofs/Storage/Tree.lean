import SqlDump.Storage
/-!
# What stands where

`entryAt` tells what stands at a place, leaving out what is below it. A change puts a node without
anything below it where no directory stands, and then the entry at that place is the only one that changes
(`entryAt_put`).
-/

namespace SqlDump.Storage

/-- What stands at a place. -/
inductive Entry where
  | file (content : ByteArray)
  | directory

/-- Whether an entry is a directory. -/
def Entry.isDirectory : Entry → Bool
  | .file _ => false
  | .directory => true

theorem map_isDirectory_eq_true {e : Option Entry} :
    e.map Entry.isDirectory = some true ↔ e = some .directory := by
  cases e with
  | none => simp
  | some e => cases e <;> simp [Entry.isDirectory]

namespace Node

/-- A node without what is below it. -/
def entry : Node → Entry
  | .file content => .file content
  | .directory _ => .directory

/-- What stands at a place below a node. -/
def entryAt (node : Node) (place : Place) : Option Entry := (node.find? place).map entry

@[simp] theorem entryAt_nil (node : Node) : node.entryAt [] = some node.entry := rfl

theorem entryAt_cons (node : Node) (name : Name) (place : Place) :
    node.entryAt (name :: place) = (node.child? name).bind fun child => child.entryAt place := by
  unfold entryAt
  rw [find?, Option.map_bind]
  rfl

theorem isDirectoryAt_iff {node : Node} {place : Place} :
    node.isDirectoryAt place = true ↔ node.entryAt place = some .directory := by
  unfold isDirectoryAt entryAt
  cases node.find? place with
  | none => simp
  | some child => cases child <;> simp [entry]

theorem isDirectoryAt_eq_false_iff {node : Node} {place : Place} :
    node.isDirectoryAt place = false ↔ node.entryAt place ≠ some .directory := by
  rw [← Bool.not_eq_true, isDirectoryAt_iff]

theorem entryAt_eq_directory_iff {node : Node} {place : Place} :
    node.entryAt place = some .directory ↔ ∃ entries, node.find? place = some (.directory entries) := by
  unfold entryAt
  cases node.find? place with
  | none => simp
  | some child => cases child <;> simp [entry]

theorem find?_eq_some_of_entryAt {node : Node} {place : Place} {content : ByteArray}
    (h : node.entryAt place = some (.file content)) : node.find? place = some (.file content) := by
  unfold entryAt at h
  obtain ⟨child, hchild, he⟩ := Option.map_eq_some_iff.1 h
  cases child with
  | file other =>
    cases he
    exact hchild
  | directory entries => cases he

/-- Below what is no directory there is nothing. -/
theorem entryAt_below {node : Node} {place : Place} (h : node.entryAt place ≠ some .directory) {below : Place}
    (hne : below ≠ []) : node.entryAt (place ++ below) = none := by
  induction place generalizing node with
  | nil =>
    obtain ⟨name, below, rfl⟩ := List.exists_cons_of_ne_nil hne
    cases node with
    | file content => rfl
    | directory entries => exact absurd rfl h
  | cons name place ih =>
    rw [List.cons_append, entryAt_cons]
    rw [entryAt_cons] at h
    cases hchild : node.child? name with
    | none => rfl
    | some child =>
      rw [hchild] at h
      exact ih h

/-! ## Putting a node -/

/-- A node with nothing below it. -/
def Bare (node : Node) : Prop := ∀ name, node.child? name = none

theorem Bare.entryAt {node : Node} (h : node.Bare) (name : Name) (place : Place) :
    node.entryAt (name :: place) = none := by
  rw [entryAt_cons, h name]
  rfl

/-- A bare node that is put into a directory, where no directory stands, changes the entry there and no other. -/
theorem entryAt_put {new node : Node} {parent : Place} {name : Name} (hnew : new.Bare)
    (hparent : node.entryAt parent = some .directory) (hplace : node.entryAt (parent ++ [name]) ≠ some .directory)
    (q : Place) : (put new (parent ++ [name]) node).entryAt q =
      if q = parent ++ [name] then some new.entry else node.entryAt q := by
  induction parent generalizing node q with
  | nil =>
    cases node with
    | file content => cases hparent
    | directory entries =>
      rw [List.nil_append] at hplace ⊢
      cases q with
      | nil => rfl
      | cons other q =>
        rw [put, put, entryAt_cons]
        by_cases hname : other = name
        · subst hname
          rw [child?, lookup_setEntry_self]
          cases q with
          | nil => simp
          | cons next q =>
            have hbelow : (directory entries).entryAt (other :: next :: q) = none :=
              entryAt_below hplace (List.cons_ne_nil next q)
            simpa [hnew.entryAt] using hbelow.symm
        · rw [child?, lookup_setEntry_of_ne hname, if_neg (by simp [hname]), entryAt_cons]
          rfl
  | cons first parent ih =>
    cases node with
    | file content => cases hparent
    | directory entries =>
      rw [entryAt_cons] at hparent
      rw [List.cons_append] at hplace ⊢
      rw [entryAt_cons] at hplace
      obtain ⟨child, hchild, hdirectory⟩ := Option.bind_eq_some_iff.1 hparent
      rw [hchild] at hplace
      have hlookup : entries.lookup first = some child := hchild
      rw [put, hlookup]
      cases q with
      | nil => rfl
      | cons other q =>
        rw [entryAt_cons, entryAt_cons]
        by_cases hname : other = first
        · subst hname
          rw [child?, lookup_setEntry_self, hchild]
          have hq := ih hdirectory hplace q
          simpa using hq
        · rw [child?, lookup_setEntry_of_ne hname, if_neg (by simp [hname])]
          rfl

end Node

end SqlDump.Storage
