import SqlDump.Proofs.Storage.FileName
import SqlDump.Proofs.Storage.Shape
import SqlDump.Proofs.Text.Newline
/-!
# Paths of names

A relative path may be names with single slashes between them. It takes one step down for each name
(`steps_ofNames`), its parent is the path of all names but the last (`parent?_ofNames`), and it can be followed
as far as there are directories.
-/

namespace SqlDump.Storage

/-- A name that a path can hold: none of its bytes is zero. -/
structure IsPlainName (name : Name) : Prop extends IsName name where
  no_nul : 0 ∉ name

instance : DecidablePred IsPlainName := fun name =>
  decidable_of_iff (name ≠ [] ∧ slash ∉ name ∧ name ≠ [dot] ∧ name ≠ [dot, dot] ∧ 0 ∉ name)
    ⟨fun ⟨hne, hslash, hdot, hdots, hzero⟩ => ⟨⟨hne, hslash, hdot, hdots⟩, hzero⟩,
      fun h => ⟨h.ne_nil, h.no_slash, h.ne_dot, h.ne_dots, h.no_nul⟩⟩

variable {names : List Name} {name : Name}

theorem forall_isName (h : ∀ part ∈ names, IsPlainName part) : ∀ part ∈ names, IsName part :=
  fun part hpart => (h part hpart).toIsName

/-! ## The path and its parent -/

theorem trimEndReversed_name (h : IsName name) (front : List UInt8) :
    trimEndReversed (name.reverse ++ front) = name.reverse ++ front := by
  obtain ⟨init, last, rfl⟩ : ∃ init last, name = init ++ [last] := by
    rw [← List.dropLast_append_getLast h.ne_nil]
    exact ⟨_, _, rfl⟩
  have hlast : last ≠ slash := by
    rintro rfl
    exact h.no_slash (by simp)
  rw [List.reverse_concat, List.cons_append]
  cases hrest : init.reverse ++ front with
  | nil => rfl
  | cons next rest =>
    -- a dot is dropped in front of a slash only, and then it is the whole name
    have hdot : ¬ (last = dot ∧ next = slash) := by
      rintro ⟨rfl, rfl⟩
      rcases List.eq_nil_or_concat' init with rfl | ⟨init, byte, rfl⟩
      · exact h.ne_dot rfl
      · obtain ⟨rfl, -⟩ : byte = slash ∧ _ := by simpa using hrest
        exact h.no_slash (by simp)
    rw [trimEndReversed, if_neg hlast, if_neg hdot]

theorem trimEndReversed_slash {bytes : List UInt8} (hne : bytes ≠ []) :
    trimEndReversed (slash :: bytes) = trimEndReversed bytes := by
  obtain ⟨byte, rest, rfl⟩ := List.exists_cons_of_ne_nil hne
  rw [trimEndReversed, if_pos rfl]

namespace Path

/-- The relative path that goes down to a place below the current directory. -/
def ofNames (names : List Name) : Path := ⟨[slash].intercalate names⟩

theorem bytes_ofNames_singleton (name : Name) : (ofNames [name]).bytes = name := by
  unfold ofNames
  rw [List.intercalate_singleton]

theorem bytes_ofNames_concat (hne : names ≠ []) (name : Name) :
    (ofNames (names ++ [name])).bytes = (ofNames names).bytes ++ slash :: name := by
  unfold ofNames
  induction names with
  | nil => exact absurd rfl hne
  | cons first names ih =>
    by_cases hnames : names = []
    · simp [hnames]
    · have hlong : names ++ [name] ≠ [] := by simp
      dsimp only at ih ⊢
      rw [List.cons_append, List.intercalate_cons_of_ne_nil hlong, ih hnames,
        List.intercalate_cons_of_ne_nil hnames, List.append_assoc (first ++ [slash])]

/-- The bytes of a path of names, cut in front of its last name. -/
theorem bytes_ofNames_cases (names : List Name) (name : Name) :
    names = [] ∧ (ofNames (names ++ [name])).bytes = name ∨
      names ≠ [] ∧ (ofNames (names ++ [name])).bytes = (ofNames names).bytes ++ slash :: name := by
  by_cases hne : names = []
  · subst hne
    exact .inl ⟨rfl, bytes_ofNames_singleton name⟩
  · exact .inr ⟨hne, bytes_ofNames_concat hne name⟩

theorem steps_ofNames (h : ∀ name ∈ names, IsName name) : (ofNames names).steps = names.map .down := by
  by_cases hne : names = []
  · subst hne
    rfl
  · have hsplit : splitAtSlashes (ofNames names).bytes = names := by
      rw [splitAtSlashes_eq]
      exact List.splitOn_intercalate slash (fun name hname => (h name hname).no_slash) hne
    have hfilter : (names.filter fun name => !name.isEmpty) = names := by
      refine List.filter_eq_self.2 fun name hname => ?_
      simp [(h name hname).ne_nil]
    unfold steps
    rw [hsplit, hfilter]
    refine List.map_congr_left fun name hname => ?_
    exact (h name hname).ofComponent

theorem bytes_ofNames_ne_nil (h : ∀ name ∈ names, IsName name) (hne : names ≠ []) :
    (ofNames names).bytes ≠ [] := by
  intro hempty
  have hpath : ofNames names = ⟨[]⟩ := congrArg Path.mk hempty
  have hsteps := steps_ofNames h
  rw [hpath, steps_nil] at hsteps
  exact hne (List.map_eq_nil_iff.1 hsteps.symm)

theorem getLast?_ofNames (h : ∀ name ∈ names, IsName name) : (ofNames names).bytes.getLast? ≠ some slash := by
  rcases List.eq_nil_or_concat' names with rfl | ⟨names, name, rfl⟩
  · simp [ofNames]
  · have hname := h name (by simp)
    have hlast : (ofNames (names ++ [name])).bytes.getLast? = name.getLast? := by
      rcases bytes_ofNames_cases names name with ⟨-, hbytes⟩ | ⟨-, hbytes⟩
      · rw [hbytes]
      · rw [hbytes, List.append_cons, List.getLast?_append_of_ne_nil _ hname.ne_nil]
    rw [hlast]
    exact fun hslash => hname.no_slash (List.mem_of_getLast? hslash)

theorem trimEndReversed_ofNames (h : ∀ name ∈ names, IsName name) :
    trimEndReversed (ofNames names).bytes.reverse = (ofNames names).bytes.reverse := by
  rcases List.eq_nil_or_concat' names with rfl | ⟨names, name, rfl⟩
  · rfl
  · have hname := h name (by simp)
    rcases bytes_ofNames_cases names name with ⟨-, hbytes⟩ | ⟨-, hbytes⟩
    · simpa [hbytes] using trimEndReversed_name hname []
    · simpa [hbytes] using trimEndReversed_name hname (slash :: (ofNames names).bytes.reverse)

/-- What is left of a path of names in front of the last one, from its end. -/
theorem trimEndReversed_dropWhile_ofNames (h : ∀ part ∈ names ++ [name], IsName part) :
    trimEndReversed ((ofNames (names ++ [name])).bytes.reverse.dropWhile (· != slash)) =
      (ofNames names).bytes.reverse := by
  obtain ⟨hnames, hname⟩ := List.forall_mem_append.1 h
  have hkept : ∀ byte ∈ name.reverse, (byte != slash) = true := by
    intro byte hbyte
    rw [bne_iff_ne]
    rintro rfl
    exact (hname name (by simp)).no_slash (List.mem_reverse.1 hbyte)
  rcases bytes_ofNames_cases names name with ⟨rfl, hbytes⟩ | ⟨hne, hbytes⟩
  · rw [hbytes, List.dropWhile_eq_nil_iff.2 hkept]
    rfl
  · have hlong : (ofNames names).bytes.reverse ≠ [] := List.reverse_ne_nil_iff.2 (bytes_ofNames_ne_nil hnames hne)
    rw [hbytes, List.reverse_append, List.reverse_cons, List.append_assoc, List.dropWhile_append_of_pos hkept,
      List.singleton_append, List.dropWhile_cons_of_neg (by simp), trimEndReversed_slash hlong,
      trimEndReversed_ofNames hnames]

theorem parent?_ofNames (h : ∀ part ∈ names ++ [name], IsName part) :
    (ofNames (names ++ [name])).parent? = some (ofNames names) := by
  have hlast : (ofNames (names ++ [name])).bytes.reverse.head? ≠ some slash := by
    rw [List.head?_reverse]
    exact getLast?_ofNames h
  unfold parent?
  rw [trimEndReversed_ofNames h]
  split
  next hnil => exact absurd (List.reverse_eq_nil_iff.1 hnil) (bytes_ofNames_ne_nil h (by simp))
  next =>
    rw [if_neg, trimEndReversed_dropWhile_ofNames h, List.reverse_reverse]
    intro hroot
    rw [hroot] at hlast
    exact hlast rfl

theorem isAbsolute_ofNames (h : ∀ name ∈ names, IsName name) : (ofNames names).isAbsolute = false := by
  induction names using List.reverseRecOn with
  | nil => rfl
  | append_singleton names name ih =>
    rw [← isAbsolute_parent (parent?_ofNames h)]
    exact ih (List.forall_mem_append.1 h).1

theorem endsWithSlash_ofNames (h : ∀ name ∈ names, IsName name) : (ofNames names).endsWithSlash = false := by
  unfold endsWithSlash
  simpa using getLast?_ofNames h

theorem length_le_bytes_ofNames (h : ∀ name ∈ names, IsName name) :
    names.length ≤ (ofNames names).bytes.length := by
  induction names using List.reverseRecOn with
  | nil => exact Nat.zero_le _
  | append_singleton names name ih =>
    have ih := ih (List.forall_mem_append.1 h).1
    have hname := List.length_pos_iff.2 (h name (by simp)).ne_nil
    rcases bytes_ofNames_cases names name with ⟨rfl, hbytes⟩ | ⟨-, hbytes⟩
    · rw [hbytes]
      exact hname
    · rw [hbytes]
      simp only [List.length_append, List.length_cons, List.length_nil]
      omega

end Path

theorem checkPath_ofNames (h : ∀ name ∈ names, IsPlainName name) (hne : names ≠ []) :
    checkPath (Path.ofNames names) = .ok () := by
  have hzero : 0 ∉ (Path.ofNames names).bytes :=
    Text.not_mem_intercalate (by decide) fun name hname => (h name hname).no_nul
  have hbytes := Path.bytes_ofNames_ne_nil (forall_isName h) hne
  unfold checkPath
  rw [if_neg hzero, if_neg (by simpa using hbytes)]

/-! ## Following the path -/

/-- All that a node stands below are directories. -/
theorem Node.entryAt_of_prefix {node : Node} {q place : Place} {e : Entry} (hq : q <+: place) (hne : q ≠ place)
    (h : node.entryAt place = some e) : node.entryAt q = some .directory := by
  obtain ⟨below, rfl⟩ := hq
  by_contra hno
  rw [entryAt_below hno (by simpa using hne)] at h
  cases h

section Walk

variable {root : Node} {place q : Place} {content : ByteArray}

theorem walk_names_eq_ok : walk root place (names.map .down ++ [.stay]) = .ok q ↔
    place ++ names = q ∧ root.entryAt q = some .directory := by
  rw [walk_stay_eq_ok]
  induction names generalizing place with
  | nil => rw [List.map_nil, walk_nil_eq_ok, List.append_nil]
  | cons name names ih =>
    rw [List.map_cons, walk_cons_eq_ok, and_assoc, Step.move, ih, List.append_assoc, List.singleton_append]
    constructor
    · rintro ⟨-, hq⟩
      exact hq
    · rintro ⟨rfl, hdirectory⟩
      exact ⟨Node.entryAt_of_prefix (List.prefix_append place _) (by simp) hdirectory, rfl, hdirectory⟩

/-- A file on the way cannot be followed any further. -/
theorem walk_names_file {front : List Name} (hfront : front <+: names)
    (hfile : root.entryAt (place ++ front) = some (.file content)) :
    walk root place (names.map .down ++ [.stay]) = .error .notADirectory := by
  induction front generalizing place names with
  | nil =>
    rw [List.append_nil] at hfile
    obtain ⟨step, steps, hsteps⟩ := List.exists_cons_of_ne_nil (l := names.map Step.down ++ [.stay]) (by simp)
    rw [hsteps, walk_cons, hfile]
    rfl
  | cons name front ih =>
    obtain ⟨names, rfl, hrest⟩ := List.cons_prefix_iff.1 hfront
    have hdirectory := Node.entryAt_of_prefix (List.prefix_append place _) (by simp) hfile
    rw [List.map_cons, List.cons_append, walk_cons, hdirectory]
    exact ih hrest (by rwa [Step.move, List.append_assoc, List.singleton_append])

/-- Where nothing is, and no file on the way there, the way ends before. -/
theorem walk_names_missing
    (hclear : ∀ front content, front <+: names → root.entryAt (place ++ front) ≠ some (.file content))
    (hnone : root.entryAt (place ++ names) = none) :
    walk root place (names.map .down ++ [.stay]) = .error .notFound := by
  induction names generalizing place with
  | nil =>
    rw [List.append_nil] at hnone
    rw [List.map_nil, List.nil_append, walk_cons, hnone]
    rfl
  | cons name names ih =>
    rw [List.map_cons, List.cons_append, walk_cons]
    cases hentry : root.entryAt place with
    | none => rfl
    | some e =>
      cases e with
      | file content => exact absurd (by rw [List.append_nil, hentry]) (hclear [] content List.nil_prefix)
      | directory =>
        refine ih ?_ ?_
        · intro front content hfront
          rw [Step.move, List.append_assoc, List.singleton_append]
          exact hclear (name :: front) content (List.cons_prefix_cons.2 ⟨rfl, hfront⟩)
        · rwa [Step.move, List.append_assoc, List.singleton_append]

end Walk

end SqlDump.Storage
