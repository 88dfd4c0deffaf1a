import SqlDump.Storage.Path
/-!
# Trees of files and directories

A node is a file with its content or a directory with its entries. `find?` looks a place up, `put`
sets what stands there, and `isDirectoryAt_put` says that a directory stays one when a node is put
where no directory is.
-/

namespace SqlDump.Storage

/-- A file or a directory. -/
inductive Node where
  | file (content : ByteArray)
  | directory (entries : List (Name × Node))

/-- Where a node stands: the names that lead to it, from the root on. -/
abbrev Place := List Name

namespace Node

/-- The entry of a directory with a name. -/
def child? : Node → Name → Option Node
  | .file _, _ => none
  | .directory entries, name => entries.lookup name

/-- The node at a place below a node. -/
def find? : Place → Node → Option Node
  | [], node => some node
  | name :: place, node => (node.child? name).bind (find? place)

/-- Whether a directory stands at a place. -/
def isDirectoryAt (place : Place) (node : Node) : Bool :=
  match node.find? place with
  | some (.directory _) => true
  | _ => false

/-- Sets the entry with a name. -/
def setEntry (name : Name) (node : Node) : List (Name × Node) → List (Name × Node)
  | [] => [(name, node)]
  | (other, old) :: rest =>
    if other = name then (name, node) :: rest else (other, old) :: setEntry name node rest

/-- Puts a node at a place below a node. Directories that are missing on the way are made, and behind
a file nothing changes. -/
def put (new : Node) : Place → Node → Node
  | [], _ => new
  | _ :: _, .file content => .file content
  | name :: place, .directory entries =>
    .directory (setEntry name (put new place ((entries.lookup name).getD (.directory []))) entries)

/-! ## What a put changes -/

theorem lookup_setEntry_self (name : Name) (node : Node) (entries : List (Name × Node)) :
    (setEntry name node entries).lookup name = some node := by
  induction entries with
  | nil => simp [setEntry]
  | cons entry rest ih =>
    obtain ⟨other, old⟩ := entry
    by_cases h : other = name
    · simp [setEntry, h]
    · have h' : (name == other) = false := by simp [Ne.symm h]
      simp [setEntry, h, List.lookup_cons, h', ih]

theorem lookup_setEntry_of_ne {name other : Name} (h : other ≠ name) (node : Node)
    (entries : List (Name × Node)) :
    (setEntry name node entries).lookup other = entries.lookup other := by
  induction entries with
  | nil =>
    have h' : (other == name) = false := by simp [h]
    simp [setEntry, List.lookup_cons, h']
  | cons entry rest ih =>
    obtain ⟨first, old⟩ := entry
    by_cases hf : first = name
    · have h' : (other == name) = false := by simp [h]
      simp [setEntry, hf, List.lookup_cons, h']
    · simp [setEntry, hf, List.lookup_cons, ih]

theorem isDirectoryAt_cons (name : Name) (place : Place) (node : Node) :
    node.isDirectoryAt (name :: place) = ((node.child? name).map (isDirectoryAt place)).getD false := by
  simp only [isDirectoryAt, find?]
  cases node.child? name <;> rfl

/-- A directory stays a directory when a node is put where no directory is. -/
theorem isDirectoryAt_put (new : Node) (place : Place) : ∀ (node : Node) (q : Place),
    node.isDirectoryAt q = true → node.isDirectoryAt place = false →
      (put new place node).isDirectoryAt q = true := by
  induction place with
  | nil =>
    intro node q hq hp
    cases node with
    | file content =>
      cases q with
      | nil => simp [isDirectoryAt, find?] at hq
      | cons name q => simp [isDirectoryAt_cons, child?] at hq
    | directory entries => simp [isDirectoryAt, find?] at hp
  | cons name place ih =>
    intro node q hq hp
    cases node with
    | file content => exact hq
    | directory entries =>
      cases q with
      | nil => simp [isDirectoryAt, find?, put]
      | cons other q =>
        rw [isDirectoryAt_cons] at hq hp ⊢
        simp only [child?, put] at hq hp ⊢
        by_cases h : other = name
        · subst h
          rw [lookup_setEntry_self]
          cases hl : entries.lookup other with
          | none => simp [hl] at hq
          | some child =>
            simp only [hl, Option.map_some, Option.getD_some] at hq hp ⊢
            exact ih child q hq hp
        · rw [lookup_setEntry_of_ne h]
          exact hq

end Node

mutual

/-- The places of all nodes below a node, each with a mark for directories. -/
def Node.places : Node → List (Place × Bool)
  | .file _ => []
  | .directory entries => placesOfAll entries

/-- The places of some entries and of all nodes below them. -/
def placesOfAll : List (Name × Node) → List (Place × Bool)
  | [] => []
  | entry :: rest => placesOfOne entry ++ placesOfAll rest

/-- The places of an entry and of all nodes below it. -/
def placesOfOne : Name × Node → List (Place × Bool)
  | (name, .file _) => [([name], false)]
  | (name, .directory entries) =>
    ([name], true) :: (placesOfAll entries).map fun (place, mark) => (name :: place, mark)

end

end SqlDump.Storage
