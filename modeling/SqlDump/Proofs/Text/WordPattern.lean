import SqlDump.Proofs.Text.Words
/-!
# Patterns and edits that respect words

A `WordPattern` asks for a whole word and looks at nothing else, so that replacing its hits is a
`mapWords` and its hits are some of the `words`. Edits that are `WordWise` neither cut a word nor
glue two together: `Edits.words` compares the words before and after them.
-/

namespace SqlDump.Text

/-! ## Patterns of one word -/

section Pattern

variable {α : Type} {p : Pattern α} {chosen : List Char → Bool} {value : List Char → α}

/-- The pattern hits exactly the words that are `chosen`, each as a whole. -/
structure WordPattern (p : Pattern α) (chosen : List Char → Bool) (value : List Char → α) : Prop where
  not_empty : chosen [] = false
  inside : ∀ {before s}, endsInWord before = true → p before s = none
  at_word : ∀ {before w s}, endsInWord before = false → (∀ c ∈ w, isWord c = true) →
    startsInWord s = false → p before (w ++ s) = if chosen w then some ⟨w.length, value w⟩ else none

/-- The pieces of a word: it is hit as a whole, or kept. -/
def wordPieces (chosen : List Char → Bool) (value : List Char → α) (w : List Char) : List (Piece α) :=
  if chosen w then [.hit (value w)] else w.map .kept

theorem scan_inside_word (hp : WordPattern p chosen value) (w s : List Char)
    (hw : ∀ c ∈ w, isWord c = true) : ∀ {before}, endsInWord before = true →
    scan p before 0 [] (w ++ s) = w.map .kept ++ scan p (w.getLast?.or before) 0 [] s := by
  induction w with
  | nil => intro before _; simp
  | cons c w ih =>
    intro before hb
    rw [List.cons_append, scan_cons_of_none (hp.inside hb),
      ih (fun d hd => hw d (by simp [hd])) (by simpa using hw c (by simp))]
    cases w <;> simp [List.getLast?_cons]

theorem scan_word_append (hp : WordPattern p chosen value) {before : Option Char} {w s : List Char}
    (hb : endsInWord before = false) (hw : ∀ c ∈ w, isWord c = true) (hs : startsInWord s = false) :
    scan p before 0 [] (w ++ s) =
      wordPieces chosen value w ++ scan p (w.getLast?.or before) 0 [] s := by
  have hat := hp.at_word hb hw hs
  cases w with
  | nil => simp [wordPieces, hp.not_empty]
  | cons c w =>
    have hlast : (c :: w).getLast?.or before = w.getLast?.or (some c) := by
      cases w <;> simp [List.getLast?_cons]
    rw [hlast]
    by_cases hc : chosen (c :: w) = true
    · simp only [hc, if_true, List.cons_append, List.length_cons] at hat
      rw [List.cons_append, scan_cons_of_some hat]
      simp [wordPieces, hc]
    · simp only [hc, List.cons_append] at hat
      rw [List.cons_append, scan_cons_of_none hat, scan_inside_word hp w s
        (fun d hd => hw d (by simp [hd])) (by simpa using hw c (by simp))]
      simp [wordPieces, hc]

theorem scan_word (hp : WordPattern p chosen value) {before : Option Char} {w : List Char}
    (hb : endsInWord before = false) (hw : ∀ c ∈ w, isWord c = true) :
    scan p before 0 [] w = wordPieces chosen value w := by
  simpa [scan] using scan_word_append hp (s := []) hb hw rfl

theorem scan_word_cons (hp : WordPattern p chosen value) {before : Option Char} {w : List Char}
    {c : Char} (s : List Char) (hb : endsInWord before = false) (hw : ∀ c ∈ w, isWord c = true)
    (hc : isWord c = false) :
    scan p before 0 [] (w ++ c :: s) =
      wordPieces chosen value w ++ .kept c :: scan p (some c) 0 [] s := by
  have hdecl : p (w.getLast?.or before) (c :: s) = none := by
    by_cases h : endsInWord (w.getLast?.or before) = true
    · exact hp.inside h
    · have := hp.at_word (w := []) (s := c :: s) (Bool.not_eq_true _ ▸ h) (by simp) hc
      simpa [hp.not_empty] using this
  rw [scan_word_append hp (s := c :: s) hb hw hc, scan_cons_of_none hdecl]

/-- The hits of a word pattern are the chosen words. -/
theorem hits_eq (hp : WordPattern p chosen value) (s : List Char) :
    (pieces p s).filterMap Piece.value? = ((words s).filter chosen).map value := by
  have hword : ∀ w, (∀ c ∈ w, isWord c = true) →
      (wordPieces chosen value w).filterMap Piece.value? = ((words w).filter chosen).map value := by
    intro w hw
    by_cases hne : w = []
    · simp [wordPieces, hne, hp.not_empty]
    · by_cases hc : chosen w = true
      · simp [wordPieces, hc, words_word hw hne, Piece.value?]
      · simp [wordPieces, hc, words_word hw hne, List.filterMap_map, Function.comp_def, Piece.value?]
  suffices ∀ before, endsInWord before = false →
      (scan p before 0 [] s).filterMap Piece.value? = ((words s).filter chosen).map value from
    this none rfl
  induction s using word_induction with
  | word w hw =>
    intro before hb
    rw [scan_word hp hb hw, hword w hw]
  | cons w c s hw hc ih =>
    intro before hb
    rw [scan_word_cons hp s hb hw hc, List.filterMap_append, hword w hw, words_append_cons _ _ hc,
      List.filterMap_cons_none rfl, ih (some c) hc, List.filter_append, List.map_append]

/-- Writing the hits of a word pattern rewrites the chosen words. -/
theorem text_eq_mapWords (hp : WordPattern p chosen value) (write : α → List Char) (s : List Char) :
    (pieces p s).flatMap (Piece.text write) =
      mapWords (fun w => if chosen w then write (value w) else w) s := by
  have hword : ∀ w, (wordPieces chosen value w).flatMap (Piece.text write) =
      if chosen w then write (value w) else w := by
    intro w
    by_cases hc : chosen w = true
    · simp [wordPieces, hc, Piece.text]
    · simp [wordPieces, hc, Piece.text, List.flatMap_map]
  suffices ∀ before, endsInWord before = false →
      (scan p before 0 [] s).flatMap (Piece.text write) =
        mapWords (fun w => if chosen w then write (value w) else w) s from this none rfl
  induction s using word_induction with
  | word w hw =>
    intro before hb
    rw [scan_word hp hb hw, hword, mapWords_word _ hw]
  | cons w c s hw hc ih =>
    intro before hb
    rw [scan_word_cons hp s hb hw hc, List.flatMap_append, hword, mapWords_append_cons _ s hw hc]
    simp [Piece.text, ih (some c) hc]

theorem replaceAll_eq_mapWords {p : Pattern (List Char)} {value : List Char → List Char}
    (hp : WordPattern p chosen value) (s : List Char) :
    replaceAll p s = mapWords (fun w => if chosen w then value w else w) s :=
  text_eq_mapWords hp id s

end Pattern

/-! ## Edits between words -/

/-- The edits neither cut a word nor glue two together, and `Rel` holds between the words that each
of them takes and writes. -/
structure WordWise (Edit : EditAt) (Rel : List (List Char) → List (List Char) → Prop) : Prop where
  new_ne : ∀ {b old new s}, Edit b old new s → new ≠ []
  starts : ∀ {b old new s}, Edit b old new s → startsInWord new = true →
    startsInWord (old ++ s) = true
  front : ∀ {b old new s}, Edit b old new s → endsInWord b = true → startsInWord (old ++ s) = false
  back : ∀ {b old new s}, Edit b old new s → startsInWord s = true →
    endsInWord old.getLast? = false ∧ endsInWord new.getLast? = false
  words : ∀ {b old new s}, Edit b old new s → Rel (words old) (words new)

namespace Edits

variable {Keep : KeepAt} {Edit : EditAt} {Rel : List (List Char) → List (List Char) → Prop}
  {before : Option Char} {s t : List Char}

theorem startsInWord_of (hW : WordWise Edit Rel) (h : Edits Keep Edit before s t)
    (ht : startsInWord t = true) : startsInWord s = true := by
  cases h with
  | nil => exact ht
  | keep _ _ => exact ht
  | edit e _ =>
    rw [startsInWord_append_of_ne_nil (hW.new_ne e)] at ht
    exact hW.starts e ht

/-- What holds between the words of each edit holds between the words of the texts. The word `pre`
is the part of a word that was kept so far. -/
theorem words_rel (hW : WordWise Edit Rel) (hrefl : ∀ l, Rel l l)
    (happ : ∀ {a b c d}, Rel a b → Rel c d → Rel (a ++ c) (b ++ d))
    (h : Edits Keep Edit before s t) :
    ∀ pre, (∀ c ∈ pre, isWord c = true) → (pre ≠ [] → endsInWord before = true) →
      Rel (words (pre ++ s)) (words (pre ++ t)) := by
  induction h with
  | nil => intro _ _ _; exact hrefl _
  | @keep b c s t _ _ ih =>
    intro pre hpre _
    by_cases hc : isWord c = true
    · have hpre' : ∀ d ∈ pre ++ [c], isWord d = true := by
        intro d hd
        rcases List.mem_append.1 hd with hd | hd
        · exact hpre d hd
        · rw [List.mem_singleton.1 hd]; exact hc
      simpa using ih (pre ++ [c]) hpre' fun _ => hc
    · have hc : isWord c = false := by simpa using hc
      rw [words_append_cons _ _ hc, words_append_cons _ _ hc]
      exact happ (hrefl _) (by simpa using ih [] (by simp) (by simp))
  | @edit b old new s t e ht ih =>
    intro pre hpre hb
    have hfront : startsInWord (old ++ s) = true → endsInWord pre.getLast? = false := by
      intro hs
      by_cases hne : pre = []
      · simp [hne]
      · rw [hW.front e (hb hne)] at hs
        cases hs
    have hstart : startsInWord (new ++ t) = true → startsInWord (old ++ s) = true := by
      rw [startsInWord_append_of_ne_nil (hW.new_ne e)]
      exact hW.starts e
    rw [words_append hfront, words_append fun h => hfront (hstart h),
      words_append fun h => (hW.back e h).1,
      words_append fun h => (hW.back e (startsInWord_of hW ht h)).2]
    exact happ (hrefl _) (happ (hW.words e) (by simpa using ih [] (by simp) (by simp)))

theorem words_eq (hW : WordWise Edit Eq) (h : Edits Keep Edit before s t) : words t = words s := by
  have := words_rel hW (fun _ => rfl) (fun h1 h2 => by rw [h1, h2]) h [] (by simp) (by simp)
  exact this.symm

theorem mem_words {Written : List Char → Prop}
    (hW : WordWise Edit fun a b => ∀ w ∈ b, w ∈ a ∨ Written w) (h : Edits Keep Edit before s t) :
    ∀ w ∈ words t, w ∈ words s ∨ Written w := by
  refine words_rel hW (fun _ _ hw => .inl hw) ?_ h [] (by simp) (by simp)
  intro a b c d h1 h2 w hw
  rcases List.mem_append.1 hw with hw | hw
  · exact (h1 w hw).imp_left (by simp +contextual)
  · exact (h2 w hw).imp_left (by simp +contextual)

end Edits

end SqlDump.Text
