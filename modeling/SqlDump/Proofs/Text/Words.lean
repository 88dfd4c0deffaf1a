import SqlDump.Proofs.Text.Occurrence
import SqlDump.Text.Blank
import SqlDump.Text.Word
/-!
# The words of a text

`words` lists the longest runs of word characters and `mapWords` rewrites each of them. Three facts
carry the rules over whole words: a text falls apart at every character that belongs to no word
(`words_append_cons`), a pattern that asks for whole words is a `mapWords` (`WordPattern`), and
edits that cut no word change the words only where they write (`Edits.words`).
-/

namespace SqlDump.Text

/-- The words of a text, in order. -/
def words (s : List Char) : List (List Char) :=
  (s.splitOnP fun c => !isWord c).filter fun w => !w.isEmpty

/-- Rewrites every word by `f`, of which `word` is the part that stands before the text. Between two
characters that belong to no word, `f` is asked for the empty word. -/
def mapWordsFrom (f : List Char → List Char) : (word : List Char) → List Char → List Char
  | word, [] => f word
  | word, c :: s =>
    if isWord c then mapWordsFrom f (word ++ [c]) s else f word ++ c :: mapWordsFrom f [] s

/-- Rewrites every word of a text by `f`. -/
def mapWords (f : List Char → List Char) (s : List Char) : List Char := mapWordsFrom f [] s

/-! ## Character classes -/

/-- The code points of the blanks. -/
def blankCodes : List Nat :=
  [0x09, 0x0A, 0x0B, 0x0C, 0x0D, 0x20, 0x85, 0xA0, 0x1680, 0x2000, 0x2001, 0x2002, 0x2003, 0x2004,
    0x2005, 0x2006, 0x2007, 0x2008, 0x2009, 0x200A, 0x2028, 0x2029, 0x202F, 0x205F, 0x3000]

theorem mem_blankCodes {c : Char} (h : isBlank c = true) : c.toNat ∈ blankCodes := by
  simp only [isBlank, Bool.or_eq_true, Bool.and_eq_true, decide_eq_true_eq, beq_iff_eq] at h
  simp only [blankCodes, List.mem_cons, List.not_mem_nil, or_false]
  omega

theorem isWord_of_isBlank {c : Char} (h : isBlank c = true) : isWord c = false := by
  have key : ∀ n ∈ blankCodes, isWord (Char.ofNat n) = false := by decide +kernel
  simpa using key _ (mem_blankCodes h)

@[simp] theorem startsInWord_nil : startsInWord [] = false := rfl

@[simp] theorem startsInWord_cons (c : Char) (s : List Char) : startsInWord (c :: s) = isWord c := rfl

@[simp] theorem endsInWord_none : endsInWord none = false := rfl

@[simp] theorem endsInWord_some (c : Char) : endsInWord (some c) = isWord c := rfl

theorem startsInWord_append_of_ne_nil {s : List Char} (hs : s ≠ []) (t : List Char) :
    startsInWord (s ++ t) = startsInWord s := by
  cases s with
  | nil => exact absurd rfl hs
  | cons c s => rfl

/-! ## Taking a text apart at its words -/

theorem word_induction {P : List Char → Prop} (word : ∀ w, (∀ c ∈ w, isWord c = true) → P w)
    (cons : ∀ w c s, (∀ c ∈ w, isWord c = true) → isWord c = false → P s → P (w ++ c :: s))
    (s : List Char) : P s :=
  span_induction isWord word cons s

theorem words_word {w : List Char} (hw : ∀ c ∈ w, isWord c = true) (hne : w ≠ []) : words w = [w] := by
  have : w.splitOnP (fun c => !isWord c) = [w] :=
    List.splitOnP_eq_singleton fun c hc => by simp [hw c hc]
  simp [words, this, hne]

@[simp] theorem words_nil : words [] = [] := rfl

theorem words_append_cons (s t : List Char) {c : Char} (hc : isWord c = false) :
    words (s ++ c :: t) = words s ++ words t := by
  have hsep : (!isWord c) = true := by simp [hc]
  simp [words, List.splitOnP_append_cons (p := fun c => !isWord c) s t hsep]

theorem words_cons {c : Char} (hc : isWord c = false) (s : List Char) : words (c :: s) = words s := by
  simpa using words_append_cons [] s hc

/-- A text falls apart into its words wherever it is cut, unless the cut goes through a word. -/
theorem words_append {s t : List Char} (h : startsInWord t = true → endsInWord s.getLast? = false) :
    words (s ++ t) = words s ++ words t := by
  cases t with
  | nil => simp
  | cons c t =>
    by_cases hc : isWord c = true
    · have hlast := h hc
      rcases List.eq_nil_or_concat s with rfl | ⟨s', d, rfl⟩
      · rfl
      · have hd : isWord d = false := by simpa using hlast
        have hs := words_append_cons s' [] hd
        have ht := words_append_cons s' (c :: t) hd
        simp only [List.concat_eq_append, List.append_assoc, List.singleton_append] at ht ⊢
        rw [ht, hs, words_nil, List.append_nil]
    · have hc : isWord c = false := by simpa using hc
      rw [words_append_cons s t hc, words_cons hc]

theorem mapWordsFrom_append (f : List Char → List Char) (w s : List Char)
    (hw : ∀ c ∈ w, isWord c = true) : ∀ word,
    mapWordsFrom f word (w ++ s) = mapWordsFrom f (word ++ w) s := by
  induction w with
  | nil => simp
  | cons c w ih =>
    intro word
    simp only [List.cons_append, mapWordsFrom, hw c (by simp), if_true]
    rw [ih (fun d hd => hw d (by simp [hd]))]
    simp

theorem mapWords_word (f : List Char → List Char) {w : List Char} (hw : ∀ c ∈ w, isWord c = true) :
    mapWords f w = f w := by
  simpa [mapWords, mapWordsFrom] using mapWordsFrom_append f w [] hw []

theorem mapWords_append_cons (f : List Char → List Char) {w : List Char} {c : Char} (s : List Char)
    (hw : ∀ c ∈ w, isWord c = true) (hc : isWord c = false) :
    mapWords f (w ++ c :: s) = f w ++ c :: mapWords f s := by
  simp [mapWords, mapWordsFrom_append f w _ hw, mapWordsFrom, hc]

theorem mapWords_append_of_not_isWord (f : List Char → List Char) (s t : List Char) {c : Char}
    (hc : isWord c = false) : mapWords f (s ++ c :: t) = mapWords f s ++ c :: mapWords f t := by
  induction s using word_induction with
  | word w hw => rw [mapWords_append_cons f t hw hc, mapWords_word f hw]
  | cons w d s hw hd ih =>
    rw [List.append_assoc, List.cons_append, mapWords_append_cons f _ hw hd,
      mapWords_append_cons f s hw hd, ih, List.append_assoc, List.cons_append]

theorem mapWords_cons {f : List Char → List Char} (hf : f [] = []) {c : Char} (hc : isWord c = false)
    (s : List Char) : mapWords f (c :: s) = c :: mapWords f s := by
  simpa [hf] using mapWords_append_cons f (w := []) s (by simp) hc

/-- A text is rewritten in two parts wherever it is cut, unless the cut goes through a word. -/
theorem mapWords_append {f : List Char → List Char} (hf : f [] = []) {s t : List Char}
    (h : startsInWord t = true → endsInWord s.getLast? = false) :
    mapWords f (s ++ t) = mapWords f s ++ mapWords f t := by
  have hnil : mapWords f [] = [] := hf
  cases t with
  | nil => simp [hnil]
  | cons c t =>
    by_cases hc : isWord c = true
    · have hlast := h hc
      rcases List.eq_nil_or_concat s with rfl | ⟨s, d, rfl⟩
      · simp [hnil]
      · have hd : isWord d = false := by simpa using hlast
        rw [List.concat_eq_append, List.append_assoc, List.singleton_append,
          mapWords_append_of_not_isWord f s _ hd, mapWords_append_of_not_isWord f s [] hd, hnil,
          List.append_assoc, List.singleton_append]
    · have hc : isWord c = false := by simpa using hc
      rw [mapWords_append_of_not_isWord f s t hc, mapWords_cons hf hc]

theorem mapWords_congr {f g : List Char → List Char} (h : ∀ w, (∀ c ∈ w, isWord c = true) → f w = g w)
    (s : List Char) : mapWords f s = mapWords g s := by
  induction s using word_induction with
  | word w hw => rw [mapWords_word f hw, mapWords_word g hw, h w hw]
  | cons w c s hw hc ih => rw [mapWords_append_cons f s hw hc, mapWords_append_cons g s hw hc, h w hw, ih]

/-- Two rewritings of words, one after the other, are one. -/
theorem mapWords_mapWords {f g : List Char → List Char}
    (hf : ∀ w, (∀ c ∈ w, isWord c = true) → ∀ c ∈ f w, isWord c = true) (s : List Char) :
    mapWords g (mapWords f s) = mapWords (fun w => g (f w)) s := by
  induction s using word_induction with
  | word w hw => rw [mapWords_word f hw, mapWords_word g (hf w hw), mapWords_word _ hw]
  | cons w c s hw hc ih =>
    rw [mapWords_append_cons f s hw hc, mapWords_append_cons g _ (hf w hw) hc,
      mapWords_append_cons _ s hw hc, ih]

/-- What is the same for the characters of each word is the same for those of the text. -/
theorem map_mapWords {α : Type} {f : List Char → List Char} (g : Char → α)
    (hf : ∀ w, (∀ c ∈ w, isWord c = true) → (f w).map g = w.map g) (s : List Char) :
    (mapWords f s).map g = s.map g := by
  induction s using word_induction with
  | word w hw => rw [mapWords_word f hw, hf w hw]
  | cons w c s hw hc ih =>
    rw [mapWords_append_cons f s hw hc, List.map_append, List.map_cons, hf w hw, ih, List.map_append,
      List.map_cons]

theorem mapWords_eq_self {f : List Char → List Char} (hf : f [] = []) {s : List Char}
    (h : ∀ w ∈ words s, f w = w) : mapWords f s = s := by
  have hword : ∀ w, (∀ c ∈ w, isWord c = true) → (∀ v ∈ words w, f v = v) → f w = w := by
    intro w hw hv
    by_cases hne : w = []
    · rw [hne, hf]
    · exact hv w (by rw [words_word hw hne, List.mem_singleton])
  induction s using word_induction with
  | word w hw => rw [mapWords_word f hw, hword w hw h]
  | cons w c s hw hc ih =>
    rw [words_append_cons _ _ hc] at h
    rw [mapWords_append_cons f s hw hc, hword w hw fun v hv => h v (List.mem_append_left _ hv),
      ih fun v hv => h v (List.mem_append_right _ hv)]

theorem words_mapWords {f : List Char → List Char} (hf : f [] = []) (s : List Char) :
    words (mapWords f s) = (words s).flatMap fun w => words (f w) := by
  have hword : ∀ w, (∀ c ∈ w, isWord c = true) →
      (words w).flatMap (fun w => words (f w)) = words (f w) := by
    intro w hw
    by_cases hne : w = []
    · simp [hne, hf]
    · simp [words_word hw hne]
  induction s using word_induction with
  | word w hw => rw [mapWords_word f hw, hword w hw]
  | cons w c s hw hc ih =>
    rw [mapWords_append_cons f s hw hc, words_append_cons _ _ hc, words_append_cons _ _ hc, ih,
      List.flatMap_append, hword w hw]

theorem countP_words_word {p : List Char → Bool} (hp : p [] = false) {w : List Char}
    (hw : ∀ c ∈ w, isWord c = true) : (words w).countP p = if p w then 1 else 0 := by
  by_cases hne : w = []
  · rw [hne, words_nil, hp]
    rfl
  · rw [words_word hw hne, List.countP_singleton]

/-! ## Texts that differ in their words -/

/-- The texts are the same between their words, and `Rel` holds between the words, one by one. Between
two characters that belong to no word it holds between empty ones. -/
inductive WordByWord (Rel : List Char → List Char → Prop) : List Char → List Char → Prop
  | word {w w' : List Char} (hw : ∀ c ∈ w, isWord c = true) (h : Rel w w') : WordByWord Rel w w'
  | cons {w w' s s' : List Char} {c : Char} (hw : ∀ c ∈ w, isWord c = true) (h : Rel w w')
    (hc : isWord c = false) (hs : WordByWord Rel s s') : WordByWord Rel (w ++ c :: s) (w' ++ c :: s')

section WordByWord

variable {Rel : List Char → List Char → Prop} {s s' : List Char}
  (hword : ∀ {w w'}, Rel w w' → (∀ c ∈ w, isWord c = true) → ∀ c ∈ w', isWord c = true)

include hword

theorem WordByWord.mapWords_eq (h : WordByWord Rel s s') {f : List Char → List Char}
    (hf : ∀ {w w'}, Rel w w' → f w' = f w) : mapWords f s' = mapWords f s := by
  induction h with
  | word hw hr => rw [mapWords_word f hw, mapWords_word f (hword hr hw), hf hr]
  | cons hw hr hc _ ih =>
    rw [mapWords_append_cons f _ hw hc, mapWords_append_cons f _ (hword hr hw) hc, hf hr, ih]

theorem WordByWord.countP_words (h : WordByWord Rel s s') {p : List Char → Bool} (hp : p [] = false)
    (hpr : ∀ {w w'}, Rel w w' → p w' = p w) : (words s').countP p = (words s).countP p := by
  induction h with
  | word hw hr => rw [countP_words_word hp hw, countP_words_word hp (hword hr hw), hpr hr]
  | cons hw hr hc _ ih =>
    rw [words_append_cons _ _ hc, words_append_cons _ _ hc, List.countP_append, List.countP_append,
      countP_words_word hp hw, countP_words_word hp (hword hr hw), hpr hr, ih]

end WordByWord

/-! ## Words as occurrences -/

/-- Nothing that belongs to a word stands beside. -/
def NoWord : Beside := fun c => endsInWord c = false

theorem mem_words_iff {w s : List Char} :
    w ∈ words s ↔ w ≠ [] ∧ (∀ c ∈ w, isWord c = true) ∧ Occurs NoWord w NoWord s := by
  constructor
  · intro h
    induction s using word_induction with
    | word v hv =>
      by_cases hne : v = []
      · simp [hne] at h
      · rw [words_word hv hne, List.mem_singleton] at h
        subst h
        exact ⟨hne, hv, [], [], by simp, rfl, rfl⟩
    | cons v c s hv hc ih =>
      rw [words_append_cons _ _ hc, List.mem_append] at h
      rcases h with h | h
      · by_cases hne : v = []
        · simp [hne] at h
        · rw [words_word hv hne, List.mem_singleton] at h
          subst h
          exact ⟨hne, hv, [], c :: s, by simp, rfl, hc⟩
      · obtain ⟨hne, hw, u, x, rfl, hu, hx⟩ := ih h
        refine ⟨hne, hw, v ++ c :: u, x, by simp, ?_, hx⟩
        rcases List.eq_nil_or_concat u with rfl | ⟨u, d, rfl⟩
        · simpa [NoWord] using hc
        · simpa [NoWord, List.getLast?_append, List.getLast?_cons] using hu
  · rintro ⟨hne, hw, u, v, rfl, hu, hv⟩
    have hv' : startsInWord v = true → endsInWord w.getLast? = false := fun h =>
      absurd h (Bool.eq_false_iff.1 hv)
    rw [words_append fun _ => hu, words_append hv', words_word hw hne]
    simp

theorem length_le_of_mem_words {w s : List Char} (h : w ∈ words s) : w.length ≤ s.length := by
  obtain ⟨-, -, u, v, rfl, -, -⟩ := mem_words_iff.1 h
  simp only [List.length_append]
  omega

end SqlDump.Text
