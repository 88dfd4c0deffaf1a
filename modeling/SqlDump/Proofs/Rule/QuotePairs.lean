import SqlDump.Proofs.Rule.Border
import SqlDump.Proofs.Text.Leftmost
import SqlDump.Proofs.Text.Marks
/-!
# Which quotes make pairs

Two rules look for a name between two quotes, of which each belongs to one name at most. So it hangs on the pairs
before whether a quote opens one. Two backticks in a row are a pair unless nothing stands between them
(`quoteBackticked_pairs`), and a longest run of double quotes gives up two of them to the name before it and two to
the name behind it, if it has so many (`collapseDoubledQuotes_runs`).
-/

namespace SqlDump.Rule

open Text

/-! ## Backticks -/

/-- Whether a backtick opens a pair, by its place among the backticks, from 1 on. It must not close the pair before
it, another one must follow, and the text between the two must not be empty. The texts before, between and behind
the backticks are given, and whether a backtick in front of them all opens a pair, which is then closed by the first
one. -/
def opensPair (before : Bool) (texts : List (List Char)) : Nat → Bool
  | 0 => before
  | i + 1 => !opensPair before texts i && decide (i + 2 < texts.length) && !(texts.getD (i + 1) []).isEmpty

/-- The backticks of a text, those that open or close a pair being double quotes. -/
def pairedMarks (before : Bool) (texts : List (List Char)) : List Char :=
  (List.range (texts.length - 1)).map fun i =>
    if opensPair before texts i || opensPair before texts (i + 1) then '"' else '\x60'

theorem opensPair_succ (before : Bool) (texts : List (List Char)) (i : Nat) : opensPair before texts (i + 1) =
    (!opensPair before texts i && decide (i + 2 < texts.length) && !(texts.getD (i + 1) []).isEmpty) := rfl

/-- Behind the first backtick the others pair in the same way. -/
theorem opensPair_cons (before : Bool) (text : List Char) (texts : List (List Char)) (i : Nat) :
    opensPair before (text :: texts) (i + 1) = opensPair (opensPair before (text :: texts) 1) texts i := by
  induction i with
  | zero => rfl
  | succ i ih =>
    have hlength : (i + 1 + 2 < (text :: texts).length) = (i + 2 < texts.length) := propext (by simp; omega)
    rw [opensPair_succ before (text :: texts), ih, opensPair_succ _ texts]
    simp only [hlength]
    rfl

theorem pairedMarks_cons (before : Bool) (text next : List Char) (texts : List (List Char)) :
    pairedMarks before (text :: next :: texts) =
      (if before || opensPair before (text :: next :: texts) 1 then '"' else '\x60') ::
        pairedMarks (opensPair before (text :: next :: texts) 1) (next :: texts) := by
  have hshift := opensPair_cons before text (next :: texts)
  generalize opensPair before (text :: next :: texts) 1 = opened at hshift ⊢
  simp only [pairedMarks, List.length_cons, Nat.add_sub_cancel, List.range_succ_eq_map, List.map_cons, List.map_map,
    Function.comp_def, Nat.succ_eq_add_one, hshift]
  rfl

/-- A backtick with none behind it is kept. -/
theorem quoteBackticked_last {text : List Char} (h : '\x60' ∉ text) :
    quoteBackticked ('\x60' :: text) = '\x60' :: text := by
  have hdeclines : backticked none ('\x60' :: text) = none := by
    have htake : text.takeWhile (· != '\x60') = text := List.takeWhile_eq_self_iff.2 (ne_of_not_mem h)
    simp [backticked, htake]
  rw [quoteBackticked, backticked_opens.replaceAll_of_declines hdeclines]
  exact congrArg _ (quoteBackticked_eq_self h)

/-- A backtick with another one right behind it is kept, and that one may open a pair. -/
theorem quoteBackticked_empty (s : List Char) :
    quoteBackticked ('\x60' :: '\x60' :: s) = '\x60' :: quoteBackticked ('\x60' :: s) :=
  backticked_opens.replaceAll_of_declines (by simp [backticked])

theorem opensPair_one (before : Bool) (text next : List Char) (texts : List (List Char)) :
    opensPair before (text :: next :: texts) 1 = true ↔ before = false ∧ texts ≠ [] ∧ next ≠ [] := by
  simp [opensPair, List.length_pos_iff, and_assoc]

theorem intercalate_tick (text next : List Char) (texts : List (List Char)) :
    ['\x60'].intercalate (text :: next :: texts) = text ++ '\x60' :: ['\x60'].intercalate (next :: texts) := by
  rw [List.intercalate_cons_of_ne_nil (by simp), List.append_assoc, List.singleton_append]

theorem quoteBackticked_lone {next : List Char} {texts : List (List Char)} (hnext : '\x60' ∉ next)
    (hlone : texts = [] ∨ next = []) :
    quoteBackticked ('\x60' :: ['\x60'].intercalate (next :: texts)) =
      '\x60' :: quoteBackticked (['\x60'].intercalate (next :: texts)) := by
  cases texts with
  | nil =>
    rw [List.intercalate_singleton, quoteBackticked_last hnext, quoteBackticked_eq_self hnext]
  | cons text texts =>
    obtain rfl := hlone.resolve_left (by simp)
    rw [intercalate_tick, List.nil_append]
    exact quoteBackticked_empty _

/-- What the rule writes for a text, and for a text behind a backtick that opens a pair. -/
theorem quoteBackticked_intercalate {texts : List (List Char)} (htexts : ∀ text ∈ texts, '\x60' ∉ text) :
    quoteBackticked (['\x60'].intercalate texts) = weave texts (pairedMarks false texts) ∧
      (1 < texts.length → texts.head? ≠ some [] →
        quoteBackticked ('\x60' :: ['\x60'].intercalate texts) = '"' :: weave texts (pairedMarks true texts)) := by
  induction texts with
  | nil => exact ⟨rfl, fun h => by simp at h⟩
  | cons text texts ih =>
    obtain ⟨htext, htexts⟩ := List.forall_mem_cons.1 htexts
    obtain ⟨ih, ihopen⟩ := ih htexts
    cases texts with
    | nil =>
      rw [List.intercalate_singleton]
      exact ⟨quoteBackticked_eq_self htext, fun h => by simp at h⟩
    | cons next texts =>
      rw [intercalate_tick, pairedMarks_cons, pairedMarks_cons]
      constructor
      · rw [quoteBackticked_append htext]
        cases hopens : opensPair false (text :: next :: texts) 1 with
        | true =>
          obtain ⟨-, htexts, hnext⟩ := (opensPair_one false text next texts).1 hopens
          rw [ihopen (by simpa [List.length_pos_iff] using htexts) (by simpa using hnext)]
          rfl
        | false =>
          have hlone : texts = [] ∨ next = [] := by
            by_contra hno
            rw [not_or] at hno
            rw [(opensPair_one false text next texts).2 ⟨rfl, hno⟩] at hopens
            cases hopens
          rw [quoteBackticked_lone (htexts next List.mem_cons_self) hlone, ih]
          rfl
      · intro _ hne
        -- the first backtick here closes the pair
        have hclosed : opensPair true (text :: next :: texts) 1 = false := rfl
        have hname := quoteBackticked_name (by simpa using hne) htext (['\x60'].intercalate (next :: texts))
        rw [ih] at hname
        rw [hclosed]
        simpa [inBackticks, quoted, weave] using hname

theorem exchanged_ticksReplaced {b : Option Char} {old new rest : List Char} (h : TicksReplaced b old new rest) :
    Exchanged '\x60' '"' 2 old new := by
  obtain ⟨name, -, -, rfl, rfl⟩ := h
  have htick : Exchanged '\x60' '"' 1 ['\x60'] ['"'] := .singleton (by decide)
  exact htick.append ((Exchanged.refl _ _ name).append htick)

theorem quoteBackticked_names {names : List (List Char × List Char)}
    (hnames : ∀ pair ∈ names, pair.1 ≠ [] ∧ '\x60' ∉ pair.1 ∧ '\x60' ∉ pair.2) :
    quoteBackticked (names.flatMap fun pair => inBackticks pair.1 ++ pair.2) =
      names.flatMap fun pair => quoted pair.1 ++ pair.2 := by
  induction names with
  | nil => rfl
  | cons pair names ih =>
    obtain ⟨⟨hne, hname, htext⟩, hnames⟩ := List.forall_mem_cons.1 hnames
    rw [List.flatMap_cons, List.append_assoc, quoteBackticked_name hne hname, quoteBackticked_append htext, ih hnames,
      List.flatMap_cons, List.append_assoc]

/-- Of the backticks of a text those become double quotes that open or close a pair, and nothing else changes. Names
in backticks come into double quotes, with no backtick left. -/
theorem quoteBackticked_pairs (s : List Char) :
    s = weave (s.splitOn '\x60') (List.replicate ((s.splitOn '\x60').length - 1) '\x60') ∧
      quoteBackticked s = weave (s.splitOn '\x60') (pairedMarks false (s.splitOn '\x60')) ∧
      (quoteBackticked s).length = s.length ∧
      Exchanged '\x60' '"' (2 * hitCount backticked s) s (quoteBackticked s) ∧
      ∀ (front : List Char) (names : List (List Char × List Char)), '\x60' ∉ front →
        (∀ pair ∈ names, pair.1 ≠ [] ∧ '\x60' ∉ pair.1 ∧ '\x60' ∉ pair.2) →
        quoteBackticked (front ++ names.flatMap fun pair => inBackticks pair.1 ++ pair.2) =
            (front ++ names.flatMap fun pair => quoted pair.1 ++ pair.2) ∧
          '\x60' ∉ front ++ names.flatMap fun pair => quoted pair.1 ++ pair.2 := by
  have hexchanged := exchanged_replaceAll backticked_finds exchanged_ticksReplaced s
  have htexts : ∀ text ∈ s.splitOn '\x60', '\x60' ∉ text := fun _ => not_mem_of_mem_splitOn
  have hpairs := (quoteBackticked_intercalate htexts).1
  rw [List.intercalate_splitOn] at hpairs
  refine ⟨(weave_splitOn _ s).symm, hpairs, hexchanged.alike.length_eq.symm, hexchanged, ?_⟩
  intro front names hfront hnames
  constructor
  · rw [quoteBackticked_append hfront, quoteBackticked_names hnames]
  · simp only [List.mem_append, List.mem_flatMap, not_or, not_exists, not_and]
    refine ⟨hfront, fun pair hpair => ?_⟩
    obtain ⟨-, hname, htext⟩ := hnames pair hpair
    simp [quoted, hname, htext]

theorem quoteBackticked_pairs_table :
    (∀ pair ∈ [("a".toList, " (".toList), ("b".toList, " TEXT)".toList)],
      pair.1 ≠ [] ∧ '\x60' ∉ pair.1 ∧ '\x60' ∉ pair.2) ∧
    quoteBackticked "CREATE TABLE `a` (`b` TEXT)".toList = "CREATE TABLE \"a\" (\"b\" TEXT)".toList := by
  have hnames : ∀ pair ∈ [("a".toList, " (".toList), ("b".toList, " TEXT)".toList)],
      pair.1 ≠ [] ∧ '\x60' ∉ pair.1 ∧ '\x60' ∉ pair.2 := by decide
  exact ⟨hnames, ((quoteBackticked_pairs []).2.2.2.2 "CREATE TABLE ".toList _ (by decide) hnames).1⟩

/-- The first backtick opens no pair, so that the other two make one. -/
example : quoteBackticked "``a`".toList = "`\"a\"".toList := by decide

/-! ## Double quotes -/

/-- How many quotes a longest run of double quotes and the one behind it lose each to a name between them, by the
place of the run among the runs, from 1 on, of which the lengths are given. A name takes two quotes on either side,
so that a run has two less for the next name. `first` is what the first run loses to a name in front of it. -/
def lostBehind (first : Nat) (lengths : List Nat) : Nat → Nat
  | 0 => first
  | i + 1 =>
    if i + 1 < lengths.length ∧ 2 ≤ lengths.getD (i + 1) 0 ∧ 2 ≤ lengths.getD i 0 - 2 * lostBehind first lengths i
    then 1 else 0

/-- What is left of the runs of double quotes. -/
def shortenedRuns (first : Nat) (lengths : List Nat) : List Nat :=
  lengths.mapIdx fun i n => n - lostBehind first lengths i - lostBehind first lengths (i + 1)

theorem lostBehind_succ (first : Nat) (lengths : List Nat) (i : Nat) : lostBehind first lengths (i + 1) =
    if i + 1 < lengths.length ∧ 2 ≤ lengths.getD (i + 1) 0 ∧ 2 ≤ lengths.getD i 0 - 2 * lostBehind first lengths i
    then 1 else 0 := rfl

/-- Behind the first run the others lose their quotes in the same way. -/
theorem lostBehind_cons (first n : Nat) (lengths : List Nat) (i : Nat) :
    lostBehind first (n :: lengths) (i + 1) = lostBehind (lostBehind first (n :: lengths) 1) lengths i := by
  induction i with
  | zero => rfl
  | succ i ih =>
    rw [lostBehind_succ first (n :: lengths), ih, lostBehind_succ _ lengths]
    simp

theorem lostBehind_one (first n m : Nat) (lengths : List Nat) :
    lostBehind first (n :: m :: lengths) 1 = if 2 ≤ m ∧ 2 ≤ n - 2 * first then 1 else 0 := by
  simp [lostBehind]

/-- A run has more quotes than it loses. -/
theorem lostBehind_le (first n : Nat) (lengths : List Nat) :
    2 * lostBehind first (n :: lengths) 1 ≤ n - 2 * first := by
  rw [lostBehind_succ]
  split
  case isTrue h => exact h.2.2
  case isFalse => exact Nat.zero_le _

/-- A name between two runs of two quotes takes one of each, unless the first one went to the name before. -/
theorem shortenedRuns_pair {lengths : List Nat} {i : Nat} (hi : lengths[i]? = some 2)
    (hnext : lengths[i + 1]? = some 2) (hfree : lostBehind 0 lengths i = 0) :
    (shortenedRuns 0 lengths)[i]? = some 1 ∧ (shortenedRuns 0 lengths)[i + 1]? = some 1 := by
  obtain ⟨hlength, -⟩ := List.getElem?_eq_some_iff.1 hnext
  have hi' : lengths.getD i 0 = 2 := by rw [List.getD_eq_getElem?_getD, hi, Option.getD_some]
  have hnext' : lengths.getD (i + 1) 0 = 2 := by rw [List.getD_eq_getElem?_getD, hnext, Option.getD_some]
  have hlost : lostBehind 0 lengths (i + 1) = 1 := by
    rw [lostBehind_succ, hfree, hi', hnext', if_pos ⟨hlength, le_rfl, le_rfl⟩]
  have hlast : lostBehind 0 lengths (i + 1 + 1) = 0 := by
    rw [lostBehind_succ, hlost, hnext', if_neg (by simp)]
  simp [shortenedRuns, hi, hnext, hfree, hlost, hlast]

theorem shortenedRuns_cons (first n : Nat) (lengths : List Nat) : shortenedRuns first (n :: lengths) =
    (n - first - lostBehind first (n :: lengths) 1) :: shortenedRuns (lostBehind first (n :: lengths) 1) lengths := by
  have hshift := lostBehind_cons first n lengths
  generalize lostBehind first (n :: lengths) 1 = lost at hshift ⊢
  simp only [shortenedRuns, List.mapIdx_cons, hshift]
  rfl

/-! ### One run -/

theorem doublyQuoted_of_head {s : List Char} (hs : s.head? ≠ some '"') : doublyQuoted none ('"' :: s) = none := by
  apply doublyQuoted_opens.declines
  rintro ⟨t, ht⟩
  obtain ⟨-, rfl⟩ := List.cons.inj ht
  exact hs rfl

/-- Quotes in front of two others are kept. -/
theorem collapse_replicate (n : Nat) (s : List Char) :
    collapseDoubledQuotes (List.replicate n '"' ++ '"' :: '"' :: s) =
      List.replicate n '"' ++ collapseDoubledQuotes ('"' :: '"' :: s) := by
  induction n with
  | zero => rfl
  | succ n ih =>
    obtain ⟨t, ht⟩ : ∃ t, List.replicate n '"' ++ '"' :: '"' :: s = '"' :: '"' :: t := by
      match n with
      | 0 => exact ⟨_, rfl⟩
      | 1 => exact ⟨_, rfl⟩
      | n + 2 => exact ⟨_, rfl⟩
    have hdeclines : doublyQuoted none ('"' :: '"' :: '"' :: t) = none := by simp [doublyQuoted]
    rw [List.replicate_succ, List.cons_append, ht, collapse_of_declines hdeclines, ← ht, ih, List.cons_append]

/-- A run is kept if no name is found behind it. -/
theorem collapse_run_kept {n : Nat} {s : List Char} (hs : s.head? ≠ some '"')
    (h : 2 ≤ n → doublyQuoted none ('"' :: '"' :: s) = none) :
    collapseDoubledQuotes (List.replicate n '"' ++ s) = List.replicate n '"' ++ collapseDoubledQuotes s := by
  match n, h with
  | 0, _ => rfl
  | 1, _ => exact collapse_of_declines (doublyQuoted_of_head hs)
  | n + 2, h =>
    have hrun : ∀ t, List.replicate (n + 2) '"' ++ t = List.replicate n '"' ++ '"' :: '"' :: t := fun t => by
      simp [List.replicate_succ']
    rw [hrun, hrun, collapse_replicate, collapse_of_declines (h (by simp)),
      collapse_of_declines (doublyQuoted_of_head hs)]

/-- A run and what is behind it lose a quote each to a name between them. -/
theorem collapse_run_name {name : List Char} (hne : name ≠ []) (hname : '"' ∉ name) (n : Nat) (s : List Char) :
    collapseDoubledQuotes (List.replicate (n + 2) '"' ++ (name ++ '"' :: '"' :: s)) =
      List.replicate (n + 1) '"' ++ (name ++ '"' :: collapseDoubledQuotes s) := by
  have hrun : ∀ t, List.replicate (n + 2) '"' ++ t = List.replicate n '"' ++ '"' :: '"' :: t := fun t => by
    simp [List.replicate_succ']
  rw [hrun, collapse_replicate, collapse_of_name hne hname]
  simp [quoted, List.replicate_succ']

theorem doublyQuoted_single {w s : List Char} (hw : '"' ∉ w) (hs : s.head? ≠ some '"') :
    doublyQuoted none ('"' :: '"' :: (w ++ '"' :: s)) = none := by
  have htake := takeWhile_append_cons_of_not_mem hw s
  cases s with
  | nil => simp [doublyQuoted, htake]
  | cons c s =>
    have hc : c ≠ '"' := by simpa using hs
    simp [doublyQuoted, htake, Ne.symm hc]

/-- Two runs with a text between them, which is a name if both are long enough. -/
theorem collapse_two_runs {w s : List Char} (hne : w ≠ []) (hw : '"' ∉ w) (hs : s.head? ≠ some '"') {n k lost : Nat}
    (hk : 0 < k) (hlost : lost = if 2 ≤ k ∧ 2 ≤ n then 1 else 0) :
    collapseDoubledQuotes (List.replicate n '"' ++ (w ++ (List.replicate k '"' ++ s))) =
      List.replicate (n - lost) '"' ++ (w ++ (List.replicate lost '"' ++
        collapseDoubledQuotes (List.replicate (k - 2 * lost) '"' ++ s))) := by
  by_cases hfound : 2 ≤ k ∧ 2 ≤ n
  · rw [if_pos hfound] at hlost
    obtain ⟨k, rfl⟩ := Nat.exists_eq_add_of_le' hfound.1
    obtain ⟨n, rfl⟩ := Nat.exists_eq_add_of_le' hfound.2
    have hrun : List.replicate (k + 2) '"' ++ s = '"' :: '"' :: (List.replicate k '"' ++ s) := rfl
    rw [hrun, collapse_run_name hne hw, hlost]
    rfl
  · rw [if_neg hfound] at hlost
    have hhead : (w ++ (List.replicate k '"' ++ s)).head? ≠ some '"' := by
      rw [List.head?_append_of_ne_nil w hne]
      exact fun hquote => hw (List.mem_of_head? hquote)
    have hdeclines (hn : 2 ≤ n) : doublyQuoted none ('"' :: '"' :: (w ++ (List.replicate k '"' ++ s))) = none := by
      obtain rfl : k = 1 := by omega
      exact doublyQuoted_single hw hs
    rw [collapse_run_kept hhead hdeclines, collapse_append hw, hlost]
    rfl

/-! ### All runs -/

/-- What a run has left behind the name in front of it, and all that follows. -/
theorem collapse_run {s : List Char} {texts : List (List Char)} {lengths : List Nat} (h : RunsOf '"' s texts lengths)
    (hs : s.head? ≠ some '"') (first n : Nat) :
    ∃ t, collapseDoubledQuotes (List.replicate (n - 2 * first) '"' ++ s) =
        List.replicate (n - 2 * first - lostBehind first (n :: lengths) 1) '"' ++ t ∧ t.head? ≠ some '"' ∧
      RunsOf '"' t texts (shortenedRuns (lostBehind first (n :: lengths) 1) lengths) := by
  induction h generalizing first n with
  | @last w hw =>
    have hcount := List.count_eq_zero.2 hw
    refine ⟨w, ?_, hs, .last hw⟩
    rw [collapse_run_kept hs fun _ => doublyQuoted_of_few_quotes (by simp [hcount]), collapse_of_no_quotes hw]
    simp [lostBehind]
  | @run w k s texts lengths hw hk hs' _ ih =>
    obtain ⟨c, w, rfl⟩ : ∃ c v, w = c :: v := by
      refine List.exists_cons_of_ne_nil ?_
      rintro rfl
      obtain ⟨k, rfl⟩ := Nat.exists_eq_add_one_of_ne_zero hk.ne'
      simp [List.replicate_succ] at hs
    have hlost := lostBehind_one first n k lengths
    rw [shortenedRuns_cons]
    generalize lostBehind first (n :: k :: lengths) 1 = lost at hlost ⊢
    obtain ⟨t, ht, hhead, hruns⟩ := ih hs' lost k
    have hle := lostBehind_le lost k lengths
    generalize lostBehind lost (k :: lengths) 1 = next at ht hle hruns ⊢
    -- the quote that the name leaves stands in front of what is left of the second run
    have hrest : lost + (k - 2 * lost - next) = k - lost - next := by
      split at hlost <;> omega
    refine ⟨c :: w ++ (List.replicate (k - lost - next) '"' ++ t), ?_, hs, .run hw ?_ hhead hruns⟩
    · rw [collapse_two_runs (List.cons_ne_nil c w) hw hs' hk hlost, ht, ← hrest, ← List.replicate_append_replicate,
        List.append_assoc]
    · split at hlost <;> omega

/-- The runs of the result. -/
theorem runsOf_collapse {s : List Char} {texts : List (List Char)} {lengths : List Nat}
    (h : RunsOf '"' s texts lengths) : RunsOf '"' (collapseDoubledQuotes s) texts (shortenedRuns 0 lengths) := by
  cases h with
  | last hw =>
    rw [collapse_of_no_quotes hw]
    exact .last hw
  | @run w n s texts lengths hw hn hs h =>
    obtain ⟨t, ht, hhead, hruns⟩ := collapse_run h hs 0 n
    have hle := lostBehind_le 0 n lengths
    rw [collapse_append hw, shortenedRuns_cons]
    exact ht ▸ .run hw (by omega) hhead hruns

/-! ### What is taken, and from where -/

theorem putIn_nameHalved {b : Option Char} {old new rest : List Char} (h : NameHalved b old new rest) :
    PutIn '"' 2 new old := by
  obtain ⟨name, -, -, rfl, rfl⟩ := h
  have hquote : PutIn '"' 1 ['"'] ['"', '"'] := ⟨by simp, rfl, rfl⟩
  exact hquote.append ((PutIn.refl '"' name).append hquote)

theorem head?_collapse (s : List Char) : (collapseDoubledQuotes s).head? = s.head? := by
  cases s with
  | nil => rfl
  | cons c s =>
    cases hs : doublyQuoted none (c :: s) with
    | none => rw [collapse_of_declines hs, List.head?_cons, List.head?_cons]
    | some hit =>
      obtain ⟨_, rest, hold, -, -, name, hne, hname, rfl, -⟩ := doublyQuoted_finds _ _ _ hs
      obtain ⟨rfl, rfl⟩ : c = '"' ∧ s = '"' :: (name ++ '"' :: '"' :: rest) := by simpa using hold
      rw [collapse_of_name hne hname]
      rfl

/-- What holds no doubled quotes, and no quote at its end, is kept. -/
theorem collapse_before {u : List Char} (hu : ¬ ['"', '"'] <:+: u) (hlast : u.getLast? ≠ some '"') (s : List Char) :
    collapseDoubledQuotes (u ++ s) = u ++ collapseDoubledQuotes s := by
  apply doublyQuoted_opens.replaceAll_append hu
  rintro v y hf hv - ⟨w, rfl⟩ -
  have hquote : v.getLast hv = '"' := by
    have hmem : v.getLast hv ∈ ['"', '"'] := by
      rw [hf]
      exact List.mem_append_left y (List.getLast_mem hv)
    simpa using hmem
  rw [List.getLast?_append_of_ne_nil w hv, List.getLast?_eq_getLast_of_ne_nil hv, hquote] at hlast
  exact hlast rfl

/-- Each run of double quotes loses a quote to the name in front of it and one to the name behind it, where they are
found, and nothing else changes. No run is lost, and a name between doubled quotes that no other name takes comes to
stand between single ones. -/
theorem collapseDoubledQuotes_runs (s : List Char) :
    (∃! parts : List (List Char) × List Nat, RunsOf '"' s parts.1 parts.2) ∧
      (∀ texts lengths, RunsOf '"' s texts lengths →
        RunsOf '"' (collapseDoubledQuotes s) texts (shortenedRuns 0 lengths)) ∧
      PutIn '"' (2 * hitCount doublyQuoted s) (collapseDoubledQuotes s) s ∧
      (∀ (lengths : List Nat) (i : Nat), lengths[i]? = some 2 → lengths[i + 1]? = some 2 →
        lostBehind 0 lengths i = 0 →
        (shortenedRuns 0 lengths)[i]? = some 1 ∧ (shortenedRuns 0 lengths)[i + 1]? = some 1) ∧
      ∀ u name v : List Char, ¬ ['"', '"'] <:+: u → u.getLast? ≠ some '"' → name ≠ [] → '"' ∉ name →
        v.head? ≠ some '"' →
        collapseDoubledQuotes (u ++ '"' :: '"' :: (name ++ '"' :: '"' :: v)) =
            u ++ (quoted name ++ collapseDoubledQuotes v) ∧
          (collapseDoubledQuotes v).head? ≠ some '"' := by
  refine ⟨existsUnique_runsOf '"' s, fun texts lengths h => runsOf_collapse h, ?_,
    fun lengths i hi hnext hfree => shortenedRuns_pair hi hnext hfree, ?_⟩
  · exact counted_replaceAll (fun n s t => PutIn '"' n t s) (.refl '"') (fun h h' => h.append h')
      doublyQuoted_finds putIn_nameHalved s
  · intro u name v hu hlast hne hname hv
    rw [collapse_before hu hlast, collapse_of_name hne hname, head?_collapse]
    exact ⟨rfl, hv⟩

/-- The middle run has quotes for both names. -/
theorem collapseDoubledQuotes_runs_four :
    RunsOf '"' "\"\"a\"\"\"\"b\"\"".toList [[], ['a'], ['b'], []] [2, 4, 2] ∧
      RunsOf '"' (collapseDoubledQuotes "\"\"a\"\"\"\"b\"\"".toList) [[], ['a'], ['b'], []] [1, 2, 1] := by
  have hruns : RunsOf '"' "\"\"a\"\"\"\"b\"\"".toList [[], ['a'], ['b'], []] [2, 4, 2] :=
    have hlast : RunsOf '"' [] [[]] [] := .last (by decide)
    have hb : RunsOf '"' "b\"\"".toList [['b'], []] [2] :=
      .run (w := ['b']) (n := 2) (by decide) (by decide) (by decide) hlast
    have ha : RunsOf '"' "a\"\"\"\"b\"\"".toList [['a'], ['b'], []] [4, 2] :=
      .run (w := ['a']) (n := 4) (by decide) (by decide) (by decide) hb
    .run (w := []) (n := 2) (by decide) (by decide) (by decide) ha
  exact ⟨hruns, (collapseDoubledQuotes_runs _).2.1 _ _ hruns⟩

example : collapseDoubledQuotes "\"\"a\"\"b\"\"".toList = "\"a\"b\"\"".toList := by decide

end SqlDump.Rule
