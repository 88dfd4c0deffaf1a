import SqlDump.Proofs.Rule.Keyword
/-!
# Keywords in capitals, word by word

The rules for type names and truth values see nothing but whole words, and write some of them in capitals
(`upcaseIf`). Two choices of words made one after the other are one (`mapWords_upcaseIf`), so that each
rule is a single pass however many names it looks for (`upcaseTypes_eq`, `upcaseBooleans_eq`).
-/

namespace SqlDump.Text

/-! ## Characters and their capitals -/

theorem toNat_lt_of_isAlphanum {c : Char} (h : c.isAlphanum = true) : c.toNat < 128 := by
  simp only [Char.isAlphanum, Char.isAlpha, Char.isUpper, Char.isLower, Char.isDigit,
    Bool.or_eq_true, Bool.and_eq_true, decide_eq_true_eq, ge_iff_le, UInt32.le_iff_toNat_le] at h
  have : c.toNat = c.val.toNat := rfl
  have : 'Z'.val.toNat = 90 := rfl
  have : 'z'.val.toNat = 122 := rfl
  have : '9'.val.toNat = 57 := rfl
  omega

theorem isWord_of_isAlphanum {c : Char} (h : c.isAlphanum = true) : isWord c = true := by
  simp [isWord, toNat_lt_of_isAlphanum h, h]

theorem isWord_toUpper {c : Char} (h : isWord c = true) : isWord c.toUpper = true := by
  by_cases hlow : c.isLower = true
  · have halpha : c.toUpper.isAlpha = true := by
      rw [Char.isAlpha_toUpper_eq_isAlpha]
      simp [Char.isAlpha, hlow]
    exact isWord_of_isAlphanum (by simp [Char.isAlphanum, halpha])
  · rwa [Char.toUpper_eq_of_not_isLower hlow]

theorem foldCase_of_isAlpha {c : Char} (h : c.isAlpha = true) : foldCase c = c.toLower := by
  have hkelvin : c ≠ '\u212A' := by
    rintro rfl
    exact absurd h (by decide)
  have hlong : c ≠ '\u017F' := by
    rintro rfl
    exact absurd h (by decide)
  simp [foldCase, hkelvin, hlong]

theorem foldCase_toUpper (c : Char) : foldCase c.toUpper = foldCase c := by
  by_cases hlow : c.isLower = true
  · have halpha : c.isAlpha = true := by simp [Char.isAlpha, hlow]
    rw [foldCase_of_isAlpha halpha, foldCase_of_isAlpha (by simpa using halpha),
      Char.toLower_toUpper_eq_toLower]
  · rw [Char.toUpper_eq_of_not_isLower hlow]

/-- Only `k` and `s` are folded to from outside ASCII. -/
theorem foldCase_eq_iff {c d : Char} (hd : d ∉ ['k', 's', '\u212A', '\u017F']) :
    foldCase c = d ↔ c.toLower = d := by
  have hsame : ∀ e : Char, e.toLower = e → d ≠ e → e.toLower ≠ d := fun e he hne h => hne (h.symm.trans he)
  simp only [List.mem_cons, List.not_mem_nil, or_false, not_or] at hd
  obtain ⟨hk, hs, hkelvin, hlong⟩ := hd
  by_cases h : c = '\u212A'
  · subst h
    exact iff_of_false (Ne.symm hk) (hsame _ (by decide) hkelvin)
  by_cases h' : c = '\u017F'
  · subst h'
    exact iff_of_false (Ne.symm hs) (hsame _ (by decide) hlong)
  simp [foldCase, h, h']

theorem map_foldCase_eq_iff {l : List Char} (hl : ∀ d ∈ l, d ∉ ['k', 's', '\u212A', '\u017F']) :
    ∀ w : List Char, w.map foldCase = l ↔ w.map Char.toLower = l := by
  induction l with
  | nil => simp
  | cons d l ih =>
    obtain ⟨hd, hl⟩ := List.forall_mem_cons.1 hl
    intro w
    cases w with
    | nil => simp
    | cons c w => rw [List.map_cons, List.map_cons, List.cons.injEq, List.cons.injEq, foldCase_eq_iff hd, ih hl w]

/-! ## Words in capitals -/

/-- A word in capitals, if it is `chosen`. -/
def upcaseIf (chosen : List Char → Bool) (w : List Char) : List Char :=
  if chosen w then w.map Char.toUpper else w

@[simp] theorem upcaseIf_nil (chosen : List Char → Bool) : upcaseIf chosen [] = [] := by simp [upcaseIf]

theorem word_upcaseIf (chosen : List Char → Bool) {w : List Char} (hw : ∀ c ∈ w, isWord c = true) :
    ∀ c ∈ upcaseIf chosen w, isWord c = true := by
  unfold upcaseIf
  split
  · intro c hc
    obtain ⟨d, hd, rfl⟩ := List.mem_map.1 hc
    exact isWord_toUpper (hw d hd)
  · exact hw

theorem length_upcaseIf (chosen : List Char → Bool) (w : List Char) : (upcaseIf chosen w).length = w.length := by
  unfold upcaseIf
  split <;> simp

theorem map_foldCase_upcaseIf (chosen : List Char → Bool) (w : List Char) :
    (upcaseIf chosen w).map foldCase = w.map foldCase := by
  unfold upcaseIf
  split
  · rw [List.map_map]
    exact List.map_congr_left fun c _ => foldCase_toUpper c
  · rfl

/-- What is in capitals already is not touched by the second choice. -/
theorem upcaseIf_upcaseIf (chosen chosen' : List Char → Bool) (w : List Char) :
    upcaseIf chosen' (upcaseIf chosen w) = upcaseIf (fun w => chosen w || chosen' w) w := by
  by_cases h : chosen w = true
  · simp [upcaseIf, h, Function.comp_def]
  · simp [upcaseIf, h]

theorem mapWords_upcaseIf (chosen chosen' : List Char → Bool) (s : List Char) :
    mapWords (upcaseIf chosen') (mapWords (upcaseIf chosen) s) =
      mapWords (upcaseIf fun w => chosen w || chosen' w) s := by
  rw [mapWords_mapWords fun _ => word_upcaseIf chosen]
  simp only [upcaseIf_upcaseIf]

theorem length_mapWords_upcaseIf (chosen : List Char → Bool) (s : List Char) :
    (mapWords (upcaseIf chosen) s).length = s.length := by
  have hsame := map_mapWords (f := upcaseIf chosen) (fun _ => ()) (fun w _ => by simp [length_upcaseIf]) s
  simpa using congrArg List.length hsame

theorem exists_word_of_upcaseIf {chosen : List Char → Bool} {w s : List Char}
    (h : w ∈ words (mapWords (upcaseIf chosen) s)) : ∃ v ∈ words s, upcaseIf chosen v = w := by
  rw [words_mapWords (upcaseIf_nil chosen), List.mem_flatMap] at h
  obtain ⟨v, hv, hw⟩ := h
  obtain ⟨hne, hword, -⟩ := mem_words_iff.1 hv
  have hupne : upcaseIf chosen v ≠ [] := by
    rw [← List.length_pos_iff, length_upcaseIf]
    exact List.length_pos_iff.2 hne
  rw [words_word (word_upcaseIf chosen hword) hupne, List.mem_singleton] at hw
  exact ⟨v, hv, hw.symm⟩

/-- Chosen words that are in capitals already are kept. -/
theorem mapWords_upcaseIf_eq_self {chosen : List Char → Bool} {s : List Char}
    (h : ∀ w ∈ words s, chosen w = true → w.map Char.toUpper = w) : mapWords (upcaseIf chosen) s = s := by
  refine mapWords_eq_self (upcaseIf_nil chosen) fun w hw => ?_
  unfold upcaseIf
  split
  case isTrue hchosen => exact h w hw hchosen
  case isFalse => rfl

theorem mapWords_upcaseIf_again (chosen : List Char → Bool) (s : List Char) :
    mapWords (upcaseIf chosen) (mapWords (upcaseIf chosen) s) = mapWords (upcaseIf chosen) s := by
  rw [mapWords_upcaseIf]
  simp only [Bool.or_self]

end SqlDump.Text

namespace SqlDump.Rule

open Text

/-- A single word that is looked for is written in capitals where it stands. -/
theorem replaceAll_wholeWord_upcase {fold : Char → Char} {phrase written : List Char}
    {chosen : List Char → Bool} (hne : phrase ≠ [])
    (hfold : ∀ c, isWord (fold c) = true → isWord c = true) (hp : ∀ c ∈ phrase, isWord c = true)
    (hchosen : ∀ w, w.map fold = phrase ↔ chosen w = true)
    (hw : ∀ w, chosen w = true → w.map Char.toUpper = written) (s : List Char) :
    replaceAll (wholeWord fold phrase written) s = mapWords (upcaseIf chosen) s := by
  rw [replaceAll_eq_mapWords (wholeWord_wordPattern written hne hfold hp)]
  refine mapWords_congr (fun w _ => ?_) s
  by_cases h : chosen w = true
  · simp [upcaseIf, h, (hchosen w).2 h, hw w h]
  · simp [upcaseIf, h, (hchosen w).not.2 h]

/-! ## Type names -/

/-- The word is one of the names, however it is written. Only the letters of ASCII are compared in
either case. -/
def isNamed (names : List String) (w : List Char) : Bool :=
  names.any fun name => w.map Char.toLower == name.toList

/-- The word `name` is written in capitals wherever it stands. -/
def Upcased (name : String) (s : List Char) : Prop :=
  ∀ w ∈ words s, w.map foldCase = name.toList → w = name.toList.map Char.toUpper

theorem typeNames_words : ∀ name ∈ typeNames, name.toList ≠ [] ∧ name.toList.all isWord = true := by
  decide

theorem map_foldCase_eq_typeName {name : String} (hname : name ∈ typeNames) (w : List Char) :
    w.map foldCase = name.toList ↔ w.map Char.toLower = name.toList := by
  have hplain : ∀ name ∈ typeNames,
      name.toList.all (fun d => d ∉ ['k', 's', '\u212A', '\u017F']) = true := by decide
  refine map_foldCase_eq_iff (fun d hd => ?_) w
  exact of_decide_eq_true (List.all_eq_true.1 (hplain name hname) d hd)

theorem map_toUpper_of_map_toLower {w l : List Char} (h : w.map Char.toLower = l) :
    w.map Char.toUpper = l.map Char.toUpper := by
  rw [← h, List.map_map]
  exact List.map_congr_left fun c _ => (Char.toUpper_toLower_eq_toUpper c).symm

theorem upcaseType_eq {name : String} (hname : name ∈ typeNames) (s : List Char) :
    upcaseType name s = mapWords (upcaseIf fun w => w.map Char.toLower == name.toList) s := by
  obtain ⟨hne, hword⟩ := typeNames_words name hname
  refine replaceAll_wholeWord_upcase hne (fun _ => isWord_of_foldCase) (List.all_eq_true.1 hword) ?_ ?_ s
  · intro w
    rw [map_foldCase_eq_typeName hname, beq_iff_eq]
  · intro w hw
    exact map_toUpper_of_map_toLower (eq_of_beq hw)

/-- Whatever names are looked for one after another, each word is in capitals that is one of them. -/
theorem foldl_upcaseType {names : List String} (hnames : names ⊆ typeNames) : ∀ s : List Char,
    names.foldl (fun s name => upcaseType name s) s = mapWords (upcaseIf (isNamed names)) s := by
  induction names with
  | nil =>
    intro s
    exact (mapWords_eq_self (upcaseIf_nil _) fun w _ => rfl).symm
  | cons name names ih =>
    intro s
    obtain ⟨hname, hnames⟩ := List.cons_subset.1 hnames
    rw [List.foldl_cons, ih hnames, upcaseType_eq hname, mapWords_upcaseIf]
    rfl

theorem upcaseTypes_eq (s : List Char) : upcaseTypes s = mapWords (upcaseIf (isNamed typeNames)) s :=
  foldl_upcaseType (List.Subset.refl _) s

theorem upcased_upcaseTypes {name : String} (hname : name ∈ typeNames) (s : List Char) :
    Upcased name (upcaseTypes s) := by
  intro w hw hfold
  rw [upcaseTypes_eq] at hw
  obtain ⟨v, -, rfl⟩ := exists_word_of_upcaseIf hw
  rw [map_foldCase_upcaseIf, map_foldCase_eq_typeName hname] at hfold
  have hnamed : isNamed typeNames v = true := List.any_eq_true.2 ⟨name, hname, beq_iff_eq.2 hfold⟩
  rw [upcaseIf, if_pos hnamed]
  exact map_toUpper_of_map_toLower hfold

/-- No letter from outside ASCII is taken for one of a name. -/
theorem ascii_of_isNamed {w : List Char} (h : isNamed typeNames w = true) : ∀ c ∈ w, c.toNat < 128 := by
  have hletters : ∀ name ∈ typeNames, name.toList.all Char.isAlpha = true := by decide
  obtain ⟨name, hname, hw⟩ := List.any_eq_true.1 h
  intro c hc
  have hmem : c.toLower ∈ name.toList := eq_of_beq hw ▸ List.mem_map_of_mem hc
  have halpha := List.all_eq_true.1 (hletters name hname) _ hmem
  rw [Char.isAlpha_toLower_eq_isAlpha] at halpha
  exact toNat_lt_of_isAlphanum (by simp [Char.isAlphanum, halpha])

/-! ## Truth values -/

/-- The word is a truth value in lower case. -/
def isTruthValue (w : List Char) : Bool := w == "false".toList || w == "true".toList

theorem upcaseBooleans_eq (s : List Char) : upcaseBooleans s = mapWords (upcaseIf isTruthValue) s := by
  have hpass : ∀ value : List Char, value ≠ [] → value.all isWord = true → ∀ t,
      replaceAll (wholeWord id value (value.map Char.toUpper)) t = mapWords (upcaseIf fun w => w == value) t := by
    intro value hne hword
    refine replaceAll_wholeWord_upcase hne (fun _ h => h) (List.all_eq_true.1 hword) ?_ ?_
    · intro w
      rw [List.map_id, beq_iff_eq]
    · intro w hw
      rw [eq_of_beq hw]
  have hfalse := hpass "false".toList (by decide) (by decide) s
  have htrue := hpass "true".toList (by decide) (by decide)
  calc upcaseBooleans s
      = replaceAll (wholeWord id "true".toList ("true".toList.map Char.toUpper))
          (replaceAll (wholeWord id "false".toList ("false".toList.map Char.toUpper)) s) := rfl
    _ = mapWords (upcaseIf fun w => w == "true".toList) (mapWords (upcaseIf fun w => w == "false".toList) s) := by
        rw [hfalse, htrue]
    _ = mapWords (upcaseIf isTruthValue) s := mapWords_upcaseIf _ _ s

theorem mem_words_upcaseBooleans (s : List Char) : ∀ w ∈ words (upcaseBooleans s),
    w ∈ words s ∧ w ≠ "true".toList ∧ w ≠ "false".toList ∨ (w = "FALSE".toList ∨ w = "TRUE".toList) := by
  intro w hw
  rw [upcaseBooleans_eq] at hw
  obtain ⟨v, hv, rfl⟩ := exists_word_of_upcaseIf hw
  by_cases h : isTruthValue v = true
  · rw [upcaseIf, if_pos h]
    simp only [isTruthValue, Bool.or_eq_true, beq_iff_eq] at h
    rcases h with rfl | rfl
    · exact .inr (.inl rfl)
    · exact .inr (.inr rfl)
  · rw [upcaseIf, if_neg h]
    simp only [isTruthValue, Bool.or_eq_true, beq_iff_eq, not_or] at h
    exact .inl ⟨hv, h.2, h.1⟩

end SqlDump.Rule
