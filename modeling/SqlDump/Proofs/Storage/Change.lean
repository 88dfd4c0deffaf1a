import Mathlib.Data.List.Basic
import SqlDump.Proofs.Result
import SqlDump.Proofs.Storage.Path
import SqlDump.Proofs.Storage.Tree
/-!
# What the operations of a storage change

A path can be followed for longer when directories are added (`walk_mono`). Making a directory with its
parents adds directories on the way of its path and changes nothing else (`grown_makeDirectories`), and
writing a file changes the entry at one place, to which its path leads (`writeFile_spec`).
-/

namespace SqlDump.Storage

/-! ## Following a path -/

/-- Where a step leads from a place. -/
def Step.move : Step → Place → Place
  | .stay, place => place
  | .up, place => place.dropLast
  | .down name, place => place ++ [name]

/-- What stands at a place decides whether a step can be taken from there. -/
theorem walk_cons (root : Node) (place : Place) (step : Step) (steps : List Step) :
    walk root place (step :: steps) = match (root.entryAt place).map Entry.isDirectory with
      | none => .error .notFound
      | some false => .error .notADirectory
      | some true => walk root (step.move place) steps := by
  unfold Node.entryAt
  rw [walk.eq_def]
  cases h : root.find? place with
  | none => simp [h]
  | some node =>
    cases node with
    | file content => simp [h, Node.entry, Entry.isDirectory]
    | directory entries => cases step <;> simp [h, Node.entry, Entry.isDirectory, Step.move]

theorem walk_cons_eq_ok {root : Node} {place q : Place} {step : Step} {steps : List Step} :
    walk root place (step :: steps) = .ok q ↔
      root.entryAt place = some .directory ∧ walk root (step.move place) steps = .ok q := by
  rw [walk_cons]
  cases h : (root.entryAt place).map Entry.isDirectory with
  | none => simp [Option.map_eq_none_iff.1 h]
  | some isDirectory =>
    cases isDirectory with
    | false => simp [← map_isDirectory_eq_true, h]
    | true => simp [map_isDirectory_eq_true.1 h]

theorem walk_append_eq_ok {root : Node} {place q : Place} {front back : List Step} :
    walk root place (front ++ back) = .ok q ↔
      ∃ middle, walk root place front = .ok middle ∧ walk root middle back = .ok q := by
  induction front generalizing place with
  | nil => simp [walk]
  | cons step front ih => simp [walk_cons_eq_ok, ih, and_assoc]

/-- A path leads to the same place when directories are added. -/
theorem walk_mono {root root' : Node} (h : ∀ q, root.entryAt q = some .directory → root'.entryAt q = some .directory)
    {place q : Place} {steps : List Step} (hw : walk root place steps = .ok q) :
    walk root' place steps = .ok q := by
  induction steps generalizing place with
  | nil => exact hw
  | cons step steps ih =>
    obtain ⟨hdirectory, hrest⟩ := walk_cons_eq_ok.1 hw
    exact walk_cons_eq_ok.2 ⟨h place hdirectory, ih hrest⟩

variable {s s' s'' : Storage} {p parent : Path}

/-- What stands at a place of the storage. -/
def entryAt (s : Storage) (place : Place) : Option Entry := s.root.entryAt place

/-- The steps of a path lead to a place. -/
def LeadsTo (s : Storage) (p : Path) (place : Place) : Prop := walk s.root (s.start p) p.steps = .ok place

theorem LeadsTo.unique {place place' : Place} (h : s.LeadsTo p place) (h' : s.LeadsTo p place') :
    place = place' :=
  Except.ok.inj (h.symm.trans h')

/-- A path leads over a place. -/
def LeadsOver (s : Storage) (p : Path) (place : Place) : Prop :=
  ∃ steps, steps <+: p.steps ∧ walk s.root (s.start p) steps = .ok place

theorem walk_nil_eq_ok {root : Node} {place q : Place} : walk root place [] = .ok q ↔ place = q := by
  unfold walk
  exact Except.ok.injEq place q ▸ Iff.rfl

theorem walk_stay_eq_ok {root : Node} {place q : Place} {steps : List Step} :
    walk root place (steps ++ [.stay]) = .ok q ↔
      walk root place steps = .ok q ∧ root.entryAt q = some .directory := by
  simp only [walk_append_eq_ok, walk_cons_eq_ok, walk_nil_eq_ok, Step.move]
  constructor
  · rintro ⟨q, hwalk, hdirectory, rfl⟩
    exact ⟨hwalk, hdirectory⟩
  · rintro ⟨hwalk, hdirectory⟩
    exact ⟨q, hwalk, hdirectory, rfl⟩

theorem walk_down_eq_ok {root : Node} {place q : Place} {steps : List Step} {name : Name} :
    walk root place (steps ++ [.down name]) = .ok q ↔ ∃ directory,
      walk root place steps = .ok directory ∧ root.entryAt directory = some .directory ∧
        directory ++ [name] = q := by
  simp only [walk_append_eq_ok, walk_cons_eq_ok, walk_nil_eq_ok, Step.move]

/-- Where a path would put a new node. -/
theorem placeOfNew_spec {place : Place} (h : s.placeOfNew p = .ok (some place)) :
    checkPath p = .ok () ∧ ∃ steps directory name, p.steps = steps ++ [.down name] ∧
      walk s.root (s.start p) steps = .ok directory ∧ s.entryAt directory = some .directory ∧
      place = directory ++ [name] := by
  unfold placeOfNew at h
  obtain ⟨⟨⟩, hcheck, h⟩ := bind_eq_ok.1 h
  obtain ⟨directory, hwalk, h⟩ := bind_eq_ok.1 h
  obtain ⟨hwalk, hdirectory⟩ := walk_stay_eq_ok.1 hwalk
  refine ⟨hcheck, p.steps.dropLast, directory, ?_⟩
  cases hlast : p.steps.getLast? with
  | none =>
    rw [hlast] at h
    cases h
  | some step =>
    rw [hlast] at h
    cases step with
    | stay => cases h
    | up => cases h
    | down name =>
      cases h
      exact ⟨name, (List.dropLast_append_getLast? _ hlast).symm, hwalk, hdirectory, rfl⟩

theorem lookup_eq_ok {node : Node} : s.lookup p = .ok node ↔ checkPath p = .ok () ∧ ∃ place,
    walk s.root (s.start p) (p.steps ++ if p.endsWithSlash then [.stay] else []) = .ok place ∧
      s.root.find? place = some node := by
  unfold lookup
  constructor
  · intro h
    obtain ⟨⟨⟩, hcheck, h⟩ := bind_eq_ok.1 h
    obtain ⟨place, hwalk, h⟩ := bind_eq_ok.1 h
    refine ⟨hcheck, place, hwalk, ?_⟩
    split at h
    next found hfound =>
      cases h
      exact hfound
    · cases h
  · rintro ⟨hcheck, place, hwalk, hnode⟩
    refine bind_eq_ok.2 ⟨(), hcheck, bind_eq_ok.2 ⟨place, hwalk, ?_⟩⟩
    rw [hnode]
    rfl

/-! ## Putting a node -/

theorem start_eq (h : s'.current = s.current) (p : Path) : s'.start p = s.start p := by
  unfold start
  rw [h]

/-- A bare node put where its path leads, with no directory there, changes the entry at that place only. -/
theorem put_spec {new : Node} (hnew : new.Bare) {place : Place} (htarget : s.placeOfNew p = .ok (some place))
    (hplace : s.root.isDirectoryAt place = false) : (s.put place new hplace).LeadsTo p place ∧
      ∀ q, (s.put place new hplace).entryAt q = if q = place then some new.entry else s.entryAt q := by
  obtain ⟨-, steps, directory, name, hsteps, hwalk, hdirectory, rfl⟩ := placeOfNew_spec htarget
  have hne := Node.isDirectoryAt_eq_false_iff.1 hplace
  have hentry : ∀ q, (s.put _ new hplace).entryAt q =
      if q = directory ++ [name] then some new.entry else s.entryAt q :=
    Node.entryAt_put hnew hdirectory hne
  refine ⟨?_, hentry⟩
  have hkept : ∀ q, s.root.entryAt q = some .directory → (s.put _ new hplace).root.entryAt q = some .directory := by
    intro q hq
    have hother : q ≠ directory ++ [name] := by
      rintro rfl
      exact hne hq
    exact (hentry q).trans ((if_neg hother).trans hq)
  unfold LeadsTo
  rw [hsteps]
  exact walk_down_eq_ok.2 ⟨directory, walk_mono hkept hwalk, hkept _ hdirectory, rfl⟩

/-! ## Making directories -/

/-- The storage differs from `s` by directories that a path leads over, and by nothing else. -/
structure Grown (s s' : Storage) (p : Path) : Prop where
  current : s'.current = s.current
  kept : ∀ {q e}, s.entryAt q = some e → s'.entryAt q = some e
  made : ∀ {q}, s.entryAt q = none → s'.entryAt q = none ∨ s'.entryAt q = some .directory ∧ s'.LeadsOver p q

theorem start_parent (h : p.parent? = some parent) (s : Storage) : s.start parent = s.start p := by
  unfold start
  rw [Path.isAbsolute_parent h]

theorem Grown.refl (s : Storage) (p : Path) : Grown s s p := ⟨rfl, id, .inl⟩

/-- A path leads over the same places when directories are added. -/
theorem LeadsOver.mono {q : Place} (h : s.LeadsOver p q) (hcurrent : s'.current = s.current)
    (hkept : ∀ q, s.entryAt q = some .directory → s'.entryAt q = some .directory) : s'.LeadsOver p q := by
  obtain ⟨steps, hsteps, hwalk⟩ := h
  refine ⟨steps, hsteps, ?_⟩
  rw [start_eq hcurrent]
  exact walk_mono hkept hwalk

theorem Grown.of_parent (h : Grown s s' parent) (hp : p.parent? = some parent) : Grown s s' p := by
  refine ⟨h.current, h.kept, fun hq => (h.made hq).imp_right ?_⟩
  rintro ⟨hd, steps, hsteps, hwalk⟩
  refine ⟨hd, steps, hsteps.trans (Path.steps_parent hp), ?_⟩
  rwa [start_parent hp] at hwalk

theorem Grown.trans (h : Grown s s' p) (h' : Grown s' s'' p) : Grown s s'' p := by
  refine ⟨h'.current.trans h.current, fun hq => h'.kept (h.kept hq), fun {q} hq => ?_⟩
  rcases h.made hq with hnone | ⟨hd, hover⟩
  · exact h'.made hnone
  · exact .inr ⟨h'.kept hd, hover.mono h'.current fun _ => h'.kept⟩

theorem makeDirectory_spec (h : s.makeDirectory p = .ok s') : ∃ place, s'.current = s.current ∧
    s'.LeadsTo p place ∧ s.entryAt place = none ∧
      ∀ q, s'.entryAt q = if q = place then some .directory else s.entryAt q := by
  unfold makeDirectory at h
  obtain ⟨target, htarget, h⟩ := bind_eq_ok.1 h
  cases target with
  | none => cases h
  | some place =>
    dsimp only at h
    split at h
    · cases h
    next hnone =>
      cases h
      have hplace := isDirectoryAt_of_find?_none hnone
      have hempty : (Node.directory []).Bare := fun _ => rfl
      obtain ⟨hleads, hentry⟩ := put_spec hempty htarget hplace
      have hfree : s.entryAt place = none := by
        unfold entryAt Node.entryAt
        rw [hnone]
        rfl
      exact ⟨place, rfl, hleads, hfree, hentry⟩

/-- Writing puts a file at the place that its path leads to. -/
theorem writeFile_spec {bytes : ByteArray} (h : s.writeFile p bytes = .ok s') : ∃ place, s'.current = s.current ∧
    s'.LeadsTo p place ∧ s'.lookup p = .ok (.file bytes) ∧ s.entryAt place ≠ some .directory ∧
      ∀ q, s'.entryAt q = if q = place then some (.file bytes) else s.entryAt q := by
  unfold writeFile at h
  obtain ⟨target, htarget, h⟩ := bind_eq_ok.1 h
  cases target with
  | none => cases h
  | some place =>
    dsimp only at h
    split at h
    · cases h
    next hslash =>
      split at h
      · cases h
      next hdirectory =>
        cases h
        have hplace := Bool.eq_false_iff.2 hdirectory
        have hbare : (Node.file bytes).Bare := fun _ => rfl
        obtain ⟨hleads, hentry⟩ := put_spec hbare htarget hplace
        refine ⟨place, rfl, hleads, ?_, ?_, hentry⟩
        · have hcheck := (placeOfNew_spec htarget).1
          have hfile := Node.find?_eq_some_of_entryAt ((hentry place).trans (if_pos rfl))
          refine lookup_eq_ok.2 ⟨hcheck, place, ?_, hfile⟩
          rw [if_neg hslash, List.append_nil]
          exact hleads
        · exact Node.isDirectoryAt_eq_false_iff.1 hplace

/-! ## Directories with their parents -/

theorem grown_makeDirectory (h : s.makeDirectory p = .ok s') : Grown s s' p := by
  obtain ⟨place, hcurrent, hleads, hfree, hentry⟩ := makeDirectory_spec h
  refine ⟨hcurrent, ?_, ?_⟩
  · intro q e hq
    have hother : q ≠ place := by
      rintro rfl
      rw [hfree] at hq
      cases hq
    rw [hentry, if_neg hother, hq]
  · intro q hq
    by_cases hplace : q = place
    · subst hplace
      exact .inr ⟨by rw [hentry, if_pos rfl], p.steps, List.prefix_refl _, hleads⟩
    · exact .inl (by rw [hentry, if_neg hplace, hq])

/-- Making directories adds directories on the way, also when it fails in the end. -/
theorem grown_makeDirectoriesWithin (depth : Nat) (s : Storage) (p : Path) :
    Grown s (makeDirectoriesWithin depth s p).2 p := by
  induction depth generalizing s p with
  | zero => exact .refl s p
  | succ depth ih =>
    unfold makeDirectoriesWithin
    split
    · exact .refl s p
    · split
      next s' hmade => exact grown_makeDirectory hmade
      · split
        · exact .refl s p
        next parent hparent =>
          have hgrown := (ih s parent).of_parent hparent
          split
          next fault s' hfailed =>
            rw [hfailed] at hgrown
            exact hgrown
          next s' hparents =>
            rw [hparents] at hgrown
            split
            next s'' hmade => exact hgrown.trans (grown_makeDirectory hmade)
            next => exact hgrown
      · exact .refl s p

theorem grown_makeDirectories (s : Storage) (p : Path) : Grown s (s.makeDirectories p).2 p :=
  grown_makeDirectoriesWithin _ s p

end SqlDump.Storage
