import SqlDump.Proofs.Storage.Change
/-!
# Storages of the same shape

Nothing that a storage does with paths hangs on what is in its files. So an operation has the same result in two
storages that hold files and directories at the same places, and it changes both in the same way (`SameChange`).
-/

namespace SqlDump.Storage

/-- Two storages hold files and directories at the same places, whatever is in the files. -/
structure SameShape (s s' : Storage) : Prop where
  current : s'.current = s.current
  entries : ∀ q, (s'.entryAt q).map Entry.isDirectory = (s.entryAt q).map Entry.isDirectory

/-- The same was done to `s` and `s'`, which led to `t` and `t'`: at each place both hold the same, or each
holds what it held. -/
structure SameChange (s s' t t' : Storage) : Prop where
  shape : SameShape t t'
  entries : ∀ q, t'.entryAt q = t.entryAt q ∨ t.entryAt q = s.entryAt q ∧ t'.entryAt q = s'.entryAt q

variable {s s' t t' u u' : Storage} {p : Path}

theorem SameShape.refl (s : Storage) : SameShape s s := ⟨rfl, fun _ => rfl⟩

theorem SameShape.entryAt_eq_none (h : SameShape s s') {q : Place} : s'.entryAt q = none ↔ s.entryAt q = none := by
  rw [← Option.map_eq_none_iff (f := Entry.isDirectory), h.entries, Option.map_eq_none_iff]

theorem SameShape.entryAt_eq_directory (h : SameShape s s') {q : Place} :
    s'.entryAt q = some .directory ↔ s.entryAt q = some .directory := by
  rw [← map_isDirectory_eq_true, h.entries, map_isDirectory_eq_true]

theorem SameChange.refl (h : SameShape s s') : SameChange s s' s s' := ⟨h, fun _ => .inr ⟨rfl, rfl⟩⟩

theorem SameChange.trans (h : SameChange s s' t t') (h' : SameChange t t' u u') : SameChange s s' u u' := by
  refine ⟨h'.shape, fun q => ?_⟩
  rcases h'.entries q with he | ⟨hu, hu'⟩
  · exact .inl he
  · rw [hu, hu']
    exact h.entries q

/-- The same entry was set at the same place. -/
theorem SameChange.of_set (h : SameShape s s') {place : Place} {e : Entry}
    (ht : t.current = s.current ∧ ∀ q, t.entryAt q = if q = place then some e else s.entryAt q)
    (ht' : t'.current = s'.current ∧ ∀ q, t'.entryAt q = if q = place then some e else s'.entryAt q) :
    SameChange s s' t t' := by
  refine ⟨⟨?_, fun q => ?_⟩, fun q => ?_⟩
  · rw [ht.1, ht'.1, h.current]
  · rw [ht.2, ht'.2]
    by_cases hq : q = place
    · rw [if_pos hq, if_pos hq]
    · rw [if_neg hq, if_neg hq, h.entries]
  · rw [ht.2, ht'.2]
    by_cases hq : q = place
    · rw [if_pos hq, if_pos hq]
      exact .inl rfl
    · rw [if_neg hq, if_neg hq]
      exact .inr ⟨rfl, rfl⟩

/-! ## Following a path -/

theorem SameShape.walk_eq (h : SameShape s s') (place : Place) (steps : List Step) :
    walk s'.root place steps = walk s.root place steps := by
  induction steps generalizing place with
  | nil => simp only [walk]
  | cons step steps ih =>
    have hplace : (s'.root.entryAt place).map Entry.isDirectory = (s.root.entryAt place).map Entry.isDirectory :=
      h.entries place
    rw [walk_cons, walk_cons, hplace, ih]

theorem SameShape.placeOfNew_eq (h : SameShape s s') (p : Path) : s'.placeOfNew p = s.placeOfNew p := by
  unfold placeOfNew
  rw [h.walk_eq, start_eq h.current]

theorem isDirectory_iff : s.isDirectory p = true ↔ checkPath p = .ok () ∧ ∃ place,
    walk s.root (s.start p) (p.steps ++ if p.endsWithSlash then [.stay] else []) = .ok place ∧
      s.entryAt place = some .directory := by
  unfold isDirectory
  constructor
  · intro h
    split at h
    next entries hlookup =>
      obtain ⟨hcheck, place, hwalk, hnode⟩ := lookup_eq_ok.1 hlookup
      exact ⟨hcheck, place, hwalk, Node.entryAt_eq_directory_iff.2 ⟨entries, hnode⟩⟩
    · cases h
  · rintro ⟨hcheck, place, hwalk, hdirectory⟩
    obtain ⟨entries, hnode⟩ := Node.entryAt_eq_directory_iff.1 hdirectory
    rw [lookup_eq_ok.2 ⟨hcheck, place, hwalk, hnode⟩]

theorem SameShape.isDirectory_eq (h : SameShape s s') (p : Path) : s'.isDirectory p = s.isDirectory p := by
  rw [Bool.eq_iff_iff, isDirectory_iff, isDirectory_iff, start_eq h.current]
  simp only [h.walk_eq, h.entryAt_eq_directory]

theorem SameShape.unlessDirectory_eq (h : SameShape s s') (p : Path) (fault : Fault) :
    s'.unlessDirectory p fault = s.unlessDirectory p fault := by
  unfold unlessDirectory
  rw [h.isDirectory_eq]

/-! ## Making a directory and writing a file -/

/-- Two results of an operation: the same fault, or the same change. -/
inductive SameResult (s s' : Storage) : Except Fault Storage → Except Fault Storage → Prop
  | error (fault : Fault) : SameResult s s' (.error fault) (.error fault)
  | ok {t t' : Storage} : SameChange s s' t t' → SameResult s s' (.ok t) (.ok t')

theorem entryAt_eq_none_iff {place : Place} : s.entryAt place = none ↔ s.root.find? place = none := by
  unfold entryAt Node.entryAt
  rw [Option.map_eq_none_iff]

/-- The same bare node was put at the same place. -/
theorem SameShape.put (h : SameShape s s') {new : Node} (hnew : new.Bare) {place : Place}
    (htarget : s.placeOfNew p = .ok (some place)) (hplace : s.root.isDirectoryAt place = false)
    (hplace' : s'.root.isDirectoryAt place = false) : SameChange s s' (s.put place new hplace)
      (s'.put place new hplace') := by
  have htarget' : s'.placeOfNew p = .ok (some place) := (h.placeOfNew_eq p).trans htarget
  exact .of_set h ⟨rfl, (put_spec hnew htarget hplace).2⟩ ⟨rfl, (put_spec hnew htarget' hplace').2⟩

theorem SameShape.makeDirectory (h : SameShape s s') (p : Path) :
    SameResult s s' (s.makeDirectory p) (s'.makeDirectory p) := by
  unfold Storage.makeDirectory
  rw [h.placeOfNew_eq]
  cases htarget : s.placeOfNew p with
  | error fault => exact .error fault
  | ok target =>
    cases target with
    | none => exact .error .alreadyExists
    | some place =>
      have hnone : s'.root.find? place = none ↔ s.root.find? place = none := by
        rw [← entryAt_eq_none_iff, h.entryAt_eq_none, entryAt_eq_none_iff]
      dsimp only [bind, Except.bind]
      split
      next node hnode =>
        split
        · exact .error .alreadyExists
        next hnone' =>
          rw [hnone.1 hnone'] at hnode
          cases hnode
      next hfree =>
        split
        next node hnode =>
          rw [hnone.2 hfree] at hnode
          cases hnode
        next hfree' => exact .ok (h.put (fun _ => rfl) htarget _ _)

theorem SameShape.writeFile (h : SameShape s s') (p : Path) (bytes : ByteArray) :
    SameResult s s' (s.writeFile p bytes) (s'.writeFile p bytes) := by
  unfold Storage.writeFile
  rw [h.placeOfNew_eq]
  cases htarget : s.placeOfNew p with
  | error fault => exact .error fault
  | ok target =>
    cases target with
    | none => exact .error .isADirectory
    | some place =>
      have hplace : s'.root.isDirectoryAt place = s.root.isDirectoryAt place := by
        rw [Bool.eq_iff_iff, Node.isDirectoryAt_iff, Node.isDirectoryAt_iff]
        exact h.entryAt_eq_directory
      show SameResult s s' (if p.endsWithSlash then .error .isADirectory
          else if h : s.root.isDirectoryAt place = true then .error .isADirectory
          else .ok (s.put place (.file bytes) (Bool.eq_false_iff.2 h)))
        (if p.endsWithSlash then .error .isADirectory
          else if h : s'.root.isDirectoryAt place = true then .error .isADirectory
          else .ok (s'.put place (.file bytes) (Bool.eq_false_iff.2 h)))
      by_cases hslash : p.endsWithSlash = true
      · rw [if_pos hslash, if_pos hslash]
        exact .error .isADirectory
      · rw [if_neg hslash, if_neg hslash]
        by_cases hdirectory : s.root.isDirectoryAt place = true
        · rw [dif_pos hdirectory, dif_pos (hplace.trans hdirectory)]
          exact .error .isADirectory
        · rw [dif_neg hdirectory, dif_neg (hplace ▸ hdirectory)]
          exact .ok (h.put (fun _ => rfl) htarget _ _)

/-! ## Directories with their parents -/

/-- Making directories with their parents fails or succeeds in both storages alike, and makes the same ones. -/
theorem SameShape.makeDirectoriesWithin (depth : Nat) (h : SameShape s s') (p : Path) :
    (Storage.makeDirectoriesWithin depth s' p).1 = (Storage.makeDirectoriesWithin depth s p).1 ∧
      SameChange s s' (Storage.makeDirectoriesWithin depth s p).2 (Storage.makeDirectoriesWithin depth s' p).2 := by
  induction depth generalizing s s' p with
  | zero => exact ⟨rfl, .refl h⟩
  | succ depth ih =>
    unfold Storage.makeDirectoriesWithin
    by_cases hempty : p.bytes.isEmpty = true
    · rw [if_pos hempty, if_pos hempty]
      exact ⟨rfl, .refl h⟩
    · rw [if_neg hempty, if_neg hempty]
      have hmade := h.makeDirectory p
      generalize s.makeDirectory p = made at hmade ⊢
      generalize s'.makeDirectory p = made' at hmade ⊢
      cases hmade with
      | ok hchange => exact ⟨rfl, hchange⟩
      | error fault =>
        -- a parent may be missing, and all other faults are passed over if there is a directory
        cases fault with
        | notFound =>
          cases p.parent? with
          | none => exact ⟨rfl, .refl h⟩
          | some parent =>
            obtain ⟨hresult, hchange⟩ := ih h parent
            dsimp only
            rcases hparent : Storage.makeDirectoriesWithin depth s parent with ⟨result, t⟩
            rcases hparent' : Storage.makeDirectoriesWithin depth s' parent with ⟨result', t'⟩
            rw [hparent, hparent'] at hresult hchange
            dsimp only at hresult hchange ⊢
            subst hresult
            cases result' with
            | error fault => exact ⟨rfl, hchange⟩
            | ok done =>
              have hlast := hchange.shape.makeDirectory p
              dsimp only
              generalize t.makeDirectory p = made at hlast ⊢
              generalize t'.makeDirectory p = made' at hlast ⊢
              cases hlast with
              | ok hchange' => exact ⟨rfl, hchange.trans hchange'⟩
              | error fault => exact ⟨hchange.shape.unlessDirectory_eq p fault, hchange⟩
        | alreadyExists => exact ⟨h.unlessDirectory_eq p _, .refl h⟩
        | notADirectory => exact ⟨h.unlessDirectory_eq p _, .refl h⟩
        | isADirectory => exact ⟨h.unlessDirectory_eq p _, .refl h⟩
        | nulInPath => exact ⟨h.unlessDirectory_eq p _, .refl h⟩

theorem SameShape.makeDirectories (h : SameShape s s') (p : Path) :
    (s'.makeDirectories p).1 = (s.makeDirectories p).1 ∧
      SameChange s s' (s.makeDirectories p).2 (s'.makeDirectories p).2 :=
  h.makeDirectoriesWithin _ p

end SqlDump.Storage
