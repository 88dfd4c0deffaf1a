import SqlDump.Proofs.Rule.Border
/-!
# The order of the rules for keywords

The rules for type names and truth values write words in capitals, and they come in any order. The rule for
counting keys looks for a phrase of four words. It finds the same places whether or not words are in
capitals, because both fold alike, and it writes capitals (`mapWords_wholeWord_comm`).
-/

namespace SqlDump.Rule

open Text

/-! ## Phrases among rewritten words -/

section WholeWord

variable {fold : Char → Char} {phrase written : List Char}

theorem startsInWord_congr {s t : List Char} (h : s.map isWord = t.map isWord) :
    startsInWord s = startsInWord t := by
  have hstarts : ∀ x : List Char, startsInWord x = (x.map isWord).head?.any id := by
    rintro (_ | _) <;> rfl
  rw [hstarts, hstarts, h]

/-- A phrase is looked for among the folded characters, and its borders among the words. -/
theorem wholeWord_congr (before : Option Char) {s t : List Char} (hfold : s.map fold = t.map fold)
    (hword : s.map isWord = t.map isWord) :
    wholeWord fold phrase written before s = wholeWord fold phrase written before t := by
  have hdrop : startsInWord (s.drop phrase.length) = startsInWord (t.drop phrase.length) :=
    startsInWord_congr (by rw [List.map_drop, List.map_drop, hword])
  unfold wholeWord
  rw [List.map_take, List.map_take, hfold, hdrop]

/-- In a word no phrase starts behind its first character. -/
theorem wholeWord_declines_word {w v : List Char} (hw : ∀ c ∈ w, isWord c = true)
    (hnone : wholeWord fold phrase written none (w ++ v) = none) :
    ∀ x y, w = x ++ y → y ≠ [] → wholeWord fold phrase written (x.getLast?.or none) (y ++ v) = none := by
  rintro x y rfl -
  rcases List.eq_nil_or_concat x with rfl | ⟨x, c, rfl⟩
  · exact hnone
  · have hc : isWord c = true := hw c (by simp)
    simp [wholeWord, hc]

theorem replaceAll_word_kept {w : List Char} (hw : ∀ c ∈ w, isWord c = true)
    (hnone : wholeWord fold phrase written none w = none) : replaceAll (wholeWord fold phrase written) w = w := by
  have hkept := wholeWord_declines_word (v := []) hw (by rwa [List.append_nil])
  simpa [replaceAll_eq_replaceFrom] using replaceFrom_kept hkept

variable (fold written) in
/-- A text starts with a phrase, or with a word that starts none, maybe an empty one. -/
theorem phrase_induction {P : List Char → Prop} (hne : phrase ≠ [])
    (hit : ∀ m v, m.map fold = phrase → startsInWord v = false → P v → P (m ++ v))
    (word : ∀ w, (∀ c ∈ w, isWord c = true) → wholeWord fold phrase written none w = none → P w)
    (cons : ∀ w c v, (∀ c ∈ w, isWord c = true) → isWord c = false →
      wholeWord fold phrase written none (w ++ c :: v) = none → P v → P (w ++ c :: v))
    (s : List Char) : P s := by
  -- behind a phrase the text goes on in the middle of what would be the next words
  induction hn : s.length using Nat.strongRecOn generalizing s with
  | ind n ih =>
    cases h : wholeWord fold phrase written none s with
    | some found =>
      obtain ⟨m, v, rfl, hmne, -, -, hm, hv, -⟩ := wholeWord_finds written hne _ _ _ h
      have hlt : v.length < n := by
        have := List.length_pos_iff.2 hmne
        rw [← hn, List.length_append]
        omega
      exact hit m v hm hv (ih _ hlt v rfl)
    | none =>
      obtain ⟨w, v, rfl, -, -, hw, hv⟩ := exists_span isWord s
      cases v with
      | nil =>
        rw [List.append_nil] at h ⊢
        exact word w hw h
      | cons c v =>
        have hlt : v.length < n := by
          rw [← hn, List.length_append, List.length_cons]
          omega
        exact cons w c v hw hv h (ih _ hlt v rfl)

variable (hfold : ∀ c, isWord (fold c) = true → isWord c = true) (hp : startsInWord phrase = true)

include hfold hp

theorem startsInWord_replaceAll_wholeWord {s : List Char} (hs : startsInWord s = false) :
    startsInWord (replaceAll (wholeWord fold phrase written) s) = false := by
  cases s with
  | nil => rfl
  | cons c s => rwa [replaceAll_wholeWord_cons written hfold hp hs]

theorem replaceAll_phrase {m v : List Char} (hm : m.map fold = phrase) (hv : startsInWord v = false) :
    replaceAll (wholeWord fold phrase written) (m ++ v) =
      written ++ replaceAll (wholeWord fold phrase written) v := by
  have hne : m ≠ [] := by
    rintro rfl
    rw [← hm] at hp
    cases hp
  rw [replaceAll_eq_replaceFrom, replaceFrom_of_some hne (wholeWord_hits written ⟨rfl, hm, hv, rfl⟩),
    replaceFrom_wholeWord _ written hfold hp hv]

/-- A word that starts no phrase is kept. -/
theorem replaceAll_no_phrase {w v : List Char} {c : Char} (hw : ∀ c ∈ w, isWord c = true) (hc : isWord c = false)
    (hnone : wholeWord fold phrase written none (w ++ c :: v) = none) :
    replaceAll (wholeWord fold phrase written) (w ++ c :: v) =
      w ++ c :: replaceAll (wholeWord fold phrase written) v := by
  rw [replaceAll_eq_replaceFrom, replaceFrom_kept (wholeWord_declines_word hw hnone),
    replaceFrom_wholeWord (t := c :: v) _ written hfold hp hc,
    replaceAll_wholeWord_cons written hfold hp hc]

/-- Words may be rewritten before a phrase is written anew, or after, if they fold as before and the
words written for the phrase are kept. -/
theorem mapWords_wholeWord_comm {f : List Char → List Char} (hnil : f [] = [])
    (hword : ∀ w, (∀ c ∈ w, isWord c = true) → ∀ c ∈ f w, isWord c = true)
    (hsame : ∀ w, (f w).map fold = w.map fold) (hwritten : mapWords f written = written) (s : List Char) :
    mapWords f (replaceAll (wholeWord fold phrase written) s) =
      replaceAll (wholeWord fold phrase written) (mapWords f s) := by
  have hfolded : ∀ x, (mapWords f x).map fold = x.map fold := map_mapWords fold fun w _ => hsame w
  have hborders : ∀ x, (mapWords f x).map isWord = x.map isWord := by
    refine map_mapWords isWord fun w hw => ?_
    have hlen : (f w).length = w.length := by simpa using congrArg List.length (hsame w)
    rw [List.map_congr_left (hword w hw), List.map_congr_left hw, List.map_const', List.map_const', hlen]
  have hdeclines : ∀ x, wholeWord fold phrase written none x = none →
      wholeWord fold phrase written none (mapWords f x) = none := fun x h => by
    rw [wholeWord_congr none (hfolded x) (hborders x), h]
  have hne : phrase ≠ [] := by
    rintro rfl
    cases hp
  induction s using phrase_induction fold written hne with
  | hit m v hm hv ih =>
    have happend : ∀ x y, startsInWord y = false → mapWords f (x ++ y) = mapWords f x ++ mapWords f y :=
      fun x y hy => mapWords_append hnil fun h => absurd h (Bool.eq_false_iff.1 hy)
    have hv' : startsInWord (mapWords f v) = false := (startsInWord_congr (hborders v)).trans hv
    rw [replaceAll_phrase hfold hp hm hv, happend _ _ (startsInWord_replaceAll_wholeWord hfold hp hv),
      hwritten, ih, happend m v hv, replaceAll_phrase hfold hp ((hfolded m).trans hm) hv']
  | word w hw h =>
    have h' := hdeclines w h
    rw [mapWords_word f hw] at h' ⊢
    rw [replaceAll_word_kept hw h, replaceAll_word_kept (hword w hw) h', mapWords_word f hw]
  | cons w c v hw hc h ih =>
    have h' := hdeclines _ h
    rw [mapWords_append_cons f v hw hc] at h' ⊢
    rw [replaceAll_no_phrase hfold hp hw hc h, mapWords_append_cons f _ hw hc, ih,
      replaceAll_no_phrase hfold hp (hword w hw) hc h']

end WholeWord

/-- Words that are in capitals already are kept. -/
theorem serialKeys_upcaseIf (chosen : List Char → Bool) (s : List Char) :
    mapWords (upcaseIf chosen) (serialKeys s) = serialKeys (mapWords (upcaseIf chosen) s) := by
  have hserial : ∀ w ∈ words "SERIAL PRIMARY KEY".toList, w.map Char.toUpper = w := by decide +kernel
  refine mapWords_wholeWord_comm (fun _ => isWord_of_foldCase) (by decide) (upcaseIf_nil chosen)
    (fun _ => word_upcaseIf chosen) (map_foldCase_upcaseIf chosen) ?_ s
  exact mapWords_upcaseIf_eq_self fun w hw _ => hserial w hw

/-! ## Any order -/

/-- The rules for keywords, in the order in which a dump goes through them. -/
def keywordRules : List (List Char → List Char) := [upcaseTypes, serialKeys, upcaseBooleans]

/-- Two of them rewrite words and see nothing else. -/
theorem exists_upcaseIf {rule : List Char → List Char} (h : rule ∈ [upcaseTypes, upcaseBooleans]) :
    ∃ chosen, rule = mapWords (upcaseIf chosen) := by
  simp only [List.mem_cons, List.not_mem_nil, or_false] at h
  rcases h with rfl | rfl
  · exact ⟨_, funext upcaseTypes_eq⟩
  · exact ⟨_, funext upcaseBooleans_eq⟩

theorem keywordRules_cases {rule : List Char → List Char} (h : rule ∈ keywordRules) :
    rule ∈ [upcaseTypes, upcaseBooleans] ∨ rule = serialKeys := by
  simp only [keywordRules, List.mem_cons, List.not_mem_nil, or_false] at h ⊢
  rcases h with rfl | rfl | rfl
  · exact .inl (.inl rfl)
  · exact .inr rfl
  · exact .inl (.inr rfl)

theorem keywordRules_comm {rule rule' : List Char → List Char} (h : rule ∈ keywordRules)
    (h' : rule' ∈ keywordRules) (s : List Char) : rule (rule' s) = rule' (rule s) := by
  rcases keywordRules_cases h with h | rfl
  · obtain ⟨chosen, rfl⟩ := exists_upcaseIf h
    rcases keywordRules_cases h' with h' | rfl
    · obtain ⟨chosen', rfl⟩ := exists_upcaseIf h'
      rw [mapWords_upcaseIf, mapWords_upcaseIf]
      simp only [Bool.or_comm]
    · exact serialKeys_upcaseIf chosen s
  · rcases keywordRules_cases h' with h' | rfl
    · obtain ⟨chosen', rfl⟩ := exists_upcaseIf h'
      exact (serialKeys_upcaseIf chosen' s).symm
    · rfl

theorem foldl_keywordRules {rules : List (List Char → List Char)} (h : rules.Perm keywordRules) (s : List Char) :
    rules.foldl (fun s rule => rule s) s = upcaseBooleans (serialKeys (upcaseTypes s)) := by
  have hcomm : ∀ rule ∈ rules, ∀ rule' ∈ rules, ∀ t, rule' (rule t) = rule (rule' t) := by
    intro rule hr rule' hr' t
    exact keywordRules_comm (h.subset hr') (h.subset hr) t
  rw [h.foldl_eq' hcomm s]
  simp only [keywordRules, List.foldl_cons, List.foldl_nil]

/-- The words that name a type are written in capitals, in whatever order the names are looked for, and
so are the truth values. Nothing else changes, and doing it again changes nothing. Together with the rule
for counting keys, the rules give the same text in any order. -/
theorem keywordRules_any_order (s : List Char) :
    upcaseTypes s = mapWords (upcaseIf (isNamed typeNames)) s ∧
      (∀ w, isNamed typeNames w = true → ∀ c ∈ w, c.toNat < 128) ∧
      (∀ names : List String, names.Perm typeNames →
        names.foldl (fun s name => upcaseType name s) s = upcaseTypes s) ∧
      upcaseBooleans s = mapWords (upcaseIf isTruthValue) s ∧
      (∀ rule ∈ [upcaseTypes, upcaseBooleans], (rule s).length = s.length ∧ rule (rule s) = rule s) ∧
      (∀ rule ∈ keywordRules, ∀ rule' ∈ keywordRules, rule (rule' s) = rule' (rule s)) ∧
      ∀ rules : List (List Char → List Char), rules.Perm keywordRules →
        rules.foldl (fun s rule => rule s) s = upcaseBooleans (serialKeys (upcaseTypes s)) := by
  refine ⟨upcaseTypes_eq s, fun _ => ascii_of_isNamed, ?_, upcaseBooleans_eq s, ?_,
    fun _ h _ h' => keywordRules_comm h h' s, fun _ h => foldl_keywordRules h s⟩
  · intro names hnames
    have hsame : isNamed names = isNamed typeNames := funext fun _ => hnames.any_eq
    rw [foldl_upcaseType hnames.subset, upcaseTypes_eq, hsame]
  · intro rule hrule
    obtain ⟨chosen, rfl⟩ := exists_upcaseIf hrule
    exact ⟨length_mapWords_upcaseIf chosen s, mapWords_upcaseIf_again chosen s⟩

/-- The Kelvin sign stands for a `k` of the phrase. It is no letter of a type name. -/
theorem keywordRules_any_order_kelvin :
    ["numeric", "real", "text", "integer"].Perm typeNames ∧
      [upcaseBooleans, serialKeys, upcaseTypes].Perm keywordRules ∧
      isNamed typeNames "TeXt".toList = true ∧
      ["numeric", "real", "text", "integer"].foldl (fun s name => upcaseType name s)
          "Integer primary \u212Aey autoincrement, TeXt true".toList =
        "INTEGER primary \u212Aey autoincrement, TEXT true".toList ∧
      [upcaseBooleans, serialKeys, upcaseTypes].foldl (fun s rule => rule s)
          "Integer primary \u212Aey autoincrement, TeXt true".toList =
        "SERIAL PRIMARY KEY, TEXT TRUE".toList := by
  have hnames : ["numeric", "real", "text", "integer"].Perm typeNames := List.reverse_perm typeNames
  have hrules : [upcaseBooleans, serialKeys, upcaseTypes].Perm keywordRules := List.reverse_perm keywordRules
  obtain ⟨-, -, hnamed, -, -, -, hfold⟩ :=
    keywordRules_any_order "Integer primary \u212Aey autoincrement, TeXt true".toList
  refine ⟨hnames, hrules, by decide, ?_, ?_⟩
  · rw [hnamed _ hnames]
    decide +kernel
  · rw [hfold _ hrules]
    decide +kernel

end SqlDump.Rule
