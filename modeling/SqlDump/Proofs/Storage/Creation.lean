import SqlDump.Proofs.Storage.Names
/-!
# Making directories and files below the current directory

With no file on the way, the directories of a path of names are made as far as they are missing, and nothing else
changes (`makeDirectories_clear`). With a file on the way nothing is made at all (`makeDirectories_blocked`).
-/

namespace SqlDump.Storage

variable {s s' s'' : Storage} {p parent : Path} {place : Place} {fault : Fault} {content : ByteArray}

/-! ## What decides an operation -/

theorem makeDirectory_of_fault (htarget : s.placeOfNew p = .error fault) : s.makeDirectory p = .error fault := by
  unfold makeDirectory
  rw [htarget]
  rfl

theorem makeDirectory_of_taken (htarget : s.placeOfNew p = .ok (some place)) (hplace : s.entryAt place ≠ none) :
    s.makeDirectory p = .error .alreadyExists := by
  unfold makeDirectory
  rw [htarget]
  dsimp only [bind, Except.bind]
  split
  · rfl
  next hnone => exact absurd (entryAt_eq_none_iff.2 hnone) hplace

theorem makeDirectory_of_free (htarget : s.placeOfNew p = .ok (some place)) (hplace : s.entryAt place = none) :
    ∃ s', s.makeDirectory p = .ok s' ∧ s'.current = s.current ∧
      ∀ q, s'.entryAt q = if q = place then some .directory else s.entryAt q := by
  have hempty : (Node.directory []).Bare := fun _ => rfl
  unfold makeDirectory
  rw [htarget]
  dsimp only [bind, Except.bind]
  split
  next node hnode =>
    rw [entryAt_eq_none_iff, hnode] at hplace
    cases hplace
  next hnone => exact ⟨_, rfl, rfl, (put_spec hempty htarget _).2⟩

theorem writeFile_of_directory (htarget : s.placeOfNew p = .ok (some place))
    (hplace : s.entryAt place = some .directory) (bytes : ByteArray) :
    s.writeFile p bytes = .error .isADirectory := by
  unfold writeFile
  rw [htarget]
  dsimp only [bind, Except.bind]
  rw [dif_pos (Node.isDirectoryAt_iff.2 hplace), ite_self]
  rfl

theorem writeFile_of_free (htarget : s.placeOfNew p = .ok (some place)) (hslash : p.endsWithSlash = false)
    (hplace : s.entryAt place ≠ some .directory) (bytes : ByteArray) :
    ∃ s', s.writeFile p bytes = .ok s' ∧ s'.current = s.current ∧
      ∀ q, s'.entryAt q = if q = place then some (.file bytes) else s.entryAt q := by
  have hbare : (Node.file bytes).Bare := fun _ => rfl
  have hno : ¬ s.root.isDirectoryAt place = true := Node.isDirectoryAt_iff.not.2 hplace
  unfold writeFile
  rw [htarget]
  dsimp only [bind, Except.bind]
  rw [dif_neg hno, hslash]
  exact ⟨_, rfl, rfl, (put_spec hbare htarget _).2⟩

section Within

variable {depth : Nat}

theorem makeDirectoriesWithin_of_ok (hbytes : p.bytes ≠ []) (hmade : s.makeDirectory p = .ok s') :
    makeDirectoriesWithin (depth + 1) s p = (.ok (), s') := by
  rw [makeDirectoriesWithin, if_neg (by simpa using hbytes), hmade]

/-- A fault that is not a missing parent ends the making, unless the directory is there already. -/
theorem makeDirectoriesWithin_of_error (hbytes : p.bytes ≠ []) (hmade : s.makeDirectory p = .error fault)
    (hfault : fault ≠ .notFound) : makeDirectoriesWithin (depth + 1) s p = (s.unlessDirectory p fault, s) := by
  rw [makeDirectoriesWithin, if_neg (by simpa using hbytes), hmade]
  cases fault with
  | notFound => exact absurd rfl hfault
  | alreadyExists => rfl
  | notADirectory => rfl
  | isADirectory => rfl
  | nulInPath => rfl

theorem makeDirectoriesWithin_of_parent (hbytes : p.bytes ≠ []) (hmissing : s.makeDirectory p = .error .notFound)
    (hparent : p.parent? = some parent) (hparents : makeDirectoriesWithin depth s parent = (.ok (), s'))
    (hmade : s'.makeDirectory p = .ok s'') : makeDirectoriesWithin (depth + 1) s p = (.ok (), s'') := by
  rw [makeDirectoriesWithin, if_neg (by simpa using hbytes), hmissing]
  dsimp only
  rw [hparent]
  dsimp only
  rw [hparents]
  dsimp only
  rw [hmade]

end Within

/-! ## Paths of names -/

/-- No file stands on the way along names from the current directory. -/
def Clear (s : Storage) (names : List Name) : Prop :=
  ∀ front content, front <+: names → s.entryAt (s.current ++ front) ≠ some (.file content)

theorem entryAt_current (s : Storage) : s.entryAt s.current = some .directory :=
  Node.isDirectoryAt_iff.1 s.current_isDirectory

section Names

variable {names front : List Name} {name : Name}

theorem entryAt_front {e : Entry} (h : s.entryAt (s.current ++ (names ++ [name])) = some e) :
    s.entryAt (s.current ++ names) = some .directory := by
  rw [← List.append_assoc] at h
  exact Node.entryAt_of_prefix (List.prefix_append _ [name]) (by simp) h

theorem start_ofNames (h : ∀ part ∈ names, IsPlainName part) : s.start (.ofNames names) = s.current := by
  unfold start
  rw [Path.isAbsolute_ofNames (forall_isName h)]
  rfl

theorem placeOfNew_ofNames (h : ∀ part ∈ names ++ [name], IsPlainName part) :
    s.placeOfNew (.ofNames (names ++ [name])) =
      (walk s.root s.current (names.map .down ++ [.stay])).map fun q => some (q ++ [name]) := by
  have hnames := forall_isName h
  have hsteps : (Path.ofNames (names ++ [name])).steps = names.map .down ++ [.down name] := by
    rw [Path.steps_ofNames hnames, List.map_append, List.map_singleton]
  unfold placeOfNew
  rw [checkPath_ofNames h (by simp), start_ofNames h, hsteps, List.dropLast_concat, List.getLast?_concat]
  dsimp only [bind, Except.bind]
  cases walk s.root s.current (names.map .down ++ [.stay]) <;> rfl

theorem placeOfNew_of_directory (h : ∀ part ∈ names ++ [name], IsPlainName part)
    (hd : s.entryAt (s.current ++ names) = some .directory) :
    s.placeOfNew (.ofNames (names ++ [name])) = .ok (some (s.current ++ (names ++ [name]))) := by
  rw [placeOfNew_ofNames h, walk_names_eq_ok.2 ⟨rfl, hd⟩, ← List.append_assoc]
  rfl

theorem placeOfNew_of_file (h : ∀ part ∈ names ++ [name], IsPlainName part) (hfront : front <+: names)
    (hfile : s.entryAt (s.current ++ front) = some (.file content)) :
    s.placeOfNew (.ofNames (names ++ [name])) = .error .notADirectory := by
  rw [placeOfNew_ofNames h, walk_names_file hfront hfile]
  rfl

theorem placeOfNew_of_missing (h : ∀ part ∈ names ++ [name], IsPlainName part) (hclear : s.Clear names)
    (hnone : s.entryAt (s.current ++ names) = none) :
    s.placeOfNew (.ofNames (names ++ [name])) = .error .notFound := by
  rw [placeOfNew_ofNames h, walk_names_missing hclear hnone]
  rfl

theorem isDirectory_ofNames (h : ∀ part ∈ names, IsPlainName part) (hne : names ≠ []) :
    s.isDirectory (.ofNames names) = true ↔ s.entryAt (s.current ++ names) = some .directory := by
  have hnames := forall_isName h
  rw [isDirectory_iff, start_ofNames h, Path.steps_ofNames hnames, Path.endsWithSlash_ofNames hnames, if_neg (by simp),
    List.append_nil]
  constructor
  · rintro ⟨-, place, hwalk, hd⟩
    obtain ⟨rfl, hd⟩ := walk_names_eq_ok.1 (walk_stay_eq_ok.2 ⟨hwalk, hd⟩)
    exact hd
  · intro hd
    exact ⟨checkPath_ofNames h hne, _, (walk_stay_eq_ok.1 (walk_names_eq_ok.2 ⟨rfl, hd⟩)).1, hd⟩

/-! ## Directories with their parents -/

/-- The storage has directories down to a place, and else it is as `s` was. -/
structure Opened (s s' : Storage) (place : Place) : Prop where
  current : s'.current = s.current
  entries : ∀ q, s'.entryAt q = if q <+: place then some .directory else s.entryAt q

theorem Opened.refl (hd : s.entryAt place = some .directory) : Opened s s place := by
  refine ⟨rfl, fun q => ?_⟩
  split
  next hq =>
    by_cases hplace : q = place
    · rw [hplace, hd]
    · exact Node.entryAt_of_prefix hq hplace hd
  · rfl

/-- One directory more is made. -/
theorem Opened.concat (h : Opened s s' place) (hcurrent : s''.current = s'.current)
    (hentries : ∀ q, s''.entryAt q = if q = place ++ [name] then some .directory else s'.entryAt q) :
    Opened s s'' (place ++ [name]) := by
  refine ⟨hcurrent.trans h.current, fun q => ?_⟩
  rw [hentries, h.entries]
  by_cases hq : q = place ++ [name]
  · simp [hq]
  · simp [hq, List.prefix_concat_iff]

theorem makeDirectoriesWithin_directory (h : ∀ part ∈ names, IsPlainName part)
    (hd : s.entryAt (s.current ++ names) = some .directory) (depth : Nat) :
    makeDirectoriesWithin (depth + 1) s (.ofNames names) = (.ok (), s) := by
  rcases List.eq_nil_or_concat' names with rfl | ⟨names, name, rfl⟩
  · rfl
  · have hbytes := Path.bytes_ofNames_ne_nil (forall_isName h) (by simp)
    have hmade := makeDirectory_of_taken (placeOfNew_of_directory h (entryAt_front hd)) (by rw [hd]; simp)
    rw [makeDirectoriesWithin_of_error hbytes hmade (by simp), unlessDirectory,
      if_pos ((isDirectory_ofNames h (by simp)).2 hd)]

theorem Opened.entryAt_place (h : Opened s s' place) : s'.entryAt place = some .directory := by
  rw [h.entries, if_pos (List.prefix_refl place)]

theorem Opened.entryAt_concat (hopened : Opened s s' (s.current ++ names)) (name : Name) :
    s'.entryAt (s.current ++ (names ++ [name])) = s.entryAt (s.current ++ (names ++ [name])) := by
  rw [hopened.entries, if_neg]
  intro hprefix
  have hlength := hprefix.length_le
  simp only [List.length_append, List.length_singleton] at hlength
  omega

theorem Opened.placeOfNew (hopened : Opened s s' (s.current ++ names))
    (h : ∀ part ∈ names ++ [name], IsPlainName part) :
    s'.placeOfNew (.ofNames (names ++ [name])) = .ok (some (s.current ++ (names ++ [name]))) := by
  have hparent : s'.entryAt (s'.current ++ names) = some .directory := by
    rw [hopened.current]
    exact hopened.entryAt_place
  rw [placeOfNew_of_directory h hparent, hopened.current]

/-- The last directory is made when those above it are there. -/
theorem Opened.makeDirectory (hopened : Opened s s' (s.current ++ names))
    (h : ∀ part ∈ names ++ [name], IsPlainName part)
    (hnone : s.entryAt (s.current ++ (names ++ [name])) = none) :
    ∃ s'', s'.makeDirectory (.ofNames (names ++ [name])) = .ok s'' ∧
      Opened s s'' (s.current ++ (names ++ [name])) := by
  have hfree := (hopened.entryAt_concat name).trans hnone
  obtain ⟨s'', hmade, hcurrent, hentries⟩ := makeDirectory_of_free (hopened.placeOfNew h) hfree
  rw [← List.append_assoc] at hentries ⊢
  exact ⟨s'', hmade, hopened.concat hcurrent hentries⟩

/-- With no file on the way, the directories are made that are missing. -/
theorem makeDirectoriesWithin_clear (h : ∀ part ∈ names, IsPlainName part) (hclear : s.Clear names) {depth : Nat}
    (hdepth : names.length < depth) : ∃ s', makeDirectoriesWithin depth s (.ofNames names) = (.ok (), s') ∧
      Opened s s' (s.current ++ names) := by
  obtain ⟨depth, rfl⟩ : ∃ d, depth = d + 1 := Nat.exists_eq_add_one.2 (Nat.zero_lt_of_lt hdepth)
  induction names using List.reverseRecOn generalizing depth with
  | nil =>
    have hd : s.entryAt (s.current ++ []) = some .directory := by
      rw [List.append_nil]
      exact s.entryAt_current
    exact ⟨s, rfl, .refl hd⟩
  | append_singleton names name ih =>
    have hnames := (List.forall_mem_append.1 h).1
    have hbytes := Path.bytes_ofNames_ne_nil (forall_isName h) (by simp)
    cases hplace : s.entryAt (s.current ++ (names ++ [name])) with
    | some e =>
      cases e with
      | file content => exact absurd hplace (hclear _ content (List.prefix_refl _))
      | directory => exact ⟨s, makeDirectoriesWithin_directory h hplace depth, .refl hplace⟩
    | none =>
      -- the parent is there, or it is missing and made first
      cases hparent : s.entryAt (s.current ++ names) with
      | some e =>
        cases e with
        | file content => exact absurd hparent (hclear names content (List.prefix_append names [name]))
        | directory =>
          obtain ⟨s', hmade, hopened⟩ := (Opened.refl hparent).makeDirectory h hplace
          exact ⟨s', makeDirectoriesWithin_of_ok hbytes hmade, hopened⟩
      | none =>
        have hclear' : s.Clear names := fun front content hfront =>
          hclear front content (hfront.trans (List.prefix_append names [name]))
        have hmissing := makeDirectory_of_fault (placeOfNew_of_missing h hclear' hparent)
        have hlength : names.length < depth := by
          rw [List.length_append, List.length_singleton] at hdepth
          omega
        obtain ⟨depth, rfl⟩ : ∃ d, depth = d + 1 := Nat.exists_eq_add_one.2 (Nat.zero_lt_of_lt hlength)
        obtain ⟨s', hparents, hopened⟩ := ih hnames hclear' depth hlength
        obtain ⟨s'', hmade, hopened'⟩ := hopened.makeDirectory h hplace
        have hpath := Path.parent?_ofNames (forall_isName h)
        exact ⟨s'', makeDirectoriesWithin_of_parent hbytes hmissing hpath hparents hmade, hopened'⟩

theorem makeDirectories_directory (h : ∀ part ∈ names, IsPlainName part)
    (hd : s.entryAt (s.current ++ names) = some .directory) : s.makeDirectories (.ofNames names) = (.ok (), s) :=
  makeDirectoriesWithin_directory h hd _

theorem makeDirectories_clear (h : ∀ part ∈ names, IsPlainName part) (hclear : s.Clear names) :
    ∃ s', s.makeDirectories (.ofNames names) = (.ok (), s') ∧ Opened s s' (s.current ++ names) :=
  makeDirectoriesWithin_clear h hclear
    (Nat.lt_succ_of_le (Path.length_le_bytes_ofNames fun part hpart => (h part hpart).toIsName))

theorem makeDirectories_of_error (h : ∀ part ∈ names, IsPlainName part) (hne : names ≠ [])
    (hmade : s.makeDirectory (.ofNames names) = .error fault) (hfault : fault ≠ .notFound)
    (hno : s.entryAt (s.current ++ names) ≠ some .directory) :
    s.makeDirectories (.ofNames names) = (.error fault, s) := by
  have hbytes := Path.bytes_ofNames_ne_nil (forall_isName h) hne
  unfold makeDirectories
  rw [makeDirectoriesWithin_of_error hbytes hmade hfault, unlessDirectory, if_neg]
  exact (isDirectory_ofNames h hne).not.2 hno

/-- A file that stands where the last directory would. -/
theorem makeDirectories_file (h : ∀ part ∈ names, IsPlainName part)
    (hfile : s.entryAt (s.current ++ names) = some (.file content)) :
    s.makeDirectories (.ofNames names) = (.error .alreadyExists, s) := by
  rcases List.eq_nil_or_concat' names with rfl | ⟨names, name, rfl⟩
  · rw [List.append_nil, s.entryAt_current] at hfile
    cases hfile
  · have hmade := makeDirectory_of_taken (placeOfNew_of_directory h (entryAt_front hfile)) (by rw [hfile]; simp)
    exact makeDirectories_of_error h (by simp) hmade (by simp) (by rw [hfile]; simp)

/-- A file that stands in front of the last directory. -/
theorem makeDirectories_behind_file (h : ∀ part ∈ names, IsPlainName part) (hfront : front <+: names)
    (hne : front ≠ names) (hfile : s.entryAt (s.current ++ front) = some (.file content)) :
    s.makeDirectories (.ofNames names) = (.error .notADirectory, s) := by
  rcases List.eq_nil_or_concat' names with rfl | ⟨names, name, rfl⟩
  · exact absurd (List.prefix_nil.1 hfront) hne
  · have hfront := (List.prefix_concat_iff.1 hfront).resolve_left hne
    have hmade := makeDirectory_of_fault (placeOfNew_of_file h hfront hfile)
    refine makeDirectories_of_error h (by simp) hmade (by simp) ?_
    -- nothing is there below a file
    intro hd
    have hbelow : s.current ++ front <+: s.current ++ (names ++ [name]) :=
      (List.prefix_append_right_inj _).2 (hfront.trans (List.prefix_append names [name]))
    have hdirectory : s.entryAt (s.current ++ front) = some .directory :=
      Node.entryAt_of_prefix hbelow (by simpa using hne) hd
    rw [hdirectory] at hfile
    cases hfile

end Names

end SqlDump.Storage
