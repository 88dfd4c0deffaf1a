import SqlDump.Proofs.Time.Epoch
import SqlDump.Proofs.Time.Range
/-!
# Seconds and milliseconds

Three more digits make milliseconds of seconds. Between 10^7 and 10^10 the longer number is always
above the threshold and the shorter one never is, so that both stand for the same second. In a text,
any choice of the numbers of ten digits can be lengthened in this way (`convertEpochs_millis`).
-/

namespace SqlDump.Time

open Text

/-- Ten digits that stand for seconds have three digits more, or the word is the same. -/
def MillisAdded (w w' : List Char) : Prop :=
  w' = w ∨ (isEpochWord w = true ∧ w.length = 10) ∧
    ∃ r : List Char, r.length = 3 ∧ (∀ c ∈ r, c.isDigit = true) ∧ w' = w ++ r

/-! ## One number -/

/-- The milliseconds of a second that is written in digits stand for that second. -/
theorem epochLiteral_append (zone : Zone) {d r : List Char} (hd : ∀ c ∈ d, c.isDigit = true)
    (hlow : 10 ^ 7 < digitsValue d) (hhigh : digitsValue d ≤ 10 ^ 10) (hlength : r.length = 3)
    (hr : ∀ c ∈ r, c.isDigit = true) :
    ∃ text, zone.epochLiteral d = .converted text ∧ zone.epochLiteral (d ++ r) = .converted text := by
  have hdigits : IsDigits d := by
    refine ⟨?_, hd⟩
    rintro rfl
    exact absurd hlow (by decide)
  have hvalue : digitsValue (d ++ r) = 1000 * digitsValue d + digitsValue r := by
    rw [digitsValue_append, hlength]
    rfl
  have hmillis : digitsValue r < 1000 := by
    have := digitsValue_lt hr
    rwa [hlength] at this
  have hsame : secondsOf (digitsValue (d ++ r)) = secondsOf (digitsValue d) := by
    unfold secondsOf millisThreshold
    rw [if_pos (by omega), if_neg (by omega)]
    omega
  obtain ⟨stamp, hstamp, hshort⟩ := epochLiteral_of_numeral zone (.unsigned hdigits) (by omega)
  obtain ⟨stamp', hstamp', hlong⟩ := epochLiteral_of_numeral zone (.unsigned (hdigits.append hr)) (by omega)
  rw [hsame, hstamp] at hstamp'
  obtain rfl := Option.some.inj hstamp'
  exact ⟨_, hshort, hlong⟩

/-! ## The words of a text -/

theorem isEpochWord_append {w r : List Char} (hw : isEpochWord w = true) (hten : w.length = 10)
    (hlength : r.length = 3) (hr : ∀ c ∈ r, c.isDigit = true) : isEpochWord (w ++ r) = true := by
  obtain ⟨hhead, hdigits, -, -⟩ := isEpochWord_iff.1 hw
  obtain ⟨w, rfl⟩ := List.head?_eq_some_iff.1 hhead
  refine isEpochWord_iff.2 ⟨rfl, fun c hc => ?_, ?_, ?_⟩
  · exact (List.mem_append.1 hc).elim (hdigits c) (hr c)
  · rw [List.length_append, hten]
    omega
  · rw [List.length_append, hten, hlength]

namespace MillisAdded

variable {w w' : List Char} (h : MillisAdded w w')

include h

theorem isWord (hw : ∀ c ∈ w, isWord c = true) : ∀ c ∈ w', isWord c = true := by
  rcases h with rfl | ⟨-, r, -, hr, rfl⟩
  · exact hw
  · intro c hc
    rcases List.mem_append.1 hc with hc | hc
    · exact hw c hc
    · exact isWord_of_isDigit (hr c hc)

theorem isEpochWord_eq : isEpochWord w' = isEpochWord w := by
  rcases h with rfl | ⟨⟨hw, hten⟩, r, hlength, hr, rfl⟩
  · rfl
  · rw [isEpochWord_append hw hten hlength hr, hw]

theorem epochText_eq (zone : Zone) : zone.epochText w' = zone.epochText w := by
  unfold Zone.epochText
  rw [h.isEpochWord_eq]
  rcases h with rfl | ⟨⟨hw, hten⟩, r, hlength, hr, rfl⟩
  · rfl
  · obtain ⟨hdigits, hlow, hhigh⟩ := digitsValue_of_isEpochWord hw
    rw [hten] at hhigh
    obtain ⟨text, hshort, hlong⟩ := epochLiteral_append zone hdigits.2 (by omega) hhigh.le hlength hr
    rw [hshort, hlong, if_pos hw, if_pos hw]

end MillisAdded

/-- A second is written the same from its milliseconds. So is a text in which some of the seconds of ten
digits are lengthened to milliseconds, and as many values are counted in it. -/
theorem convertEpochs_millis (zone : Zone) :
    (∀ d r : List Char, (∀ c ∈ d, c.isDigit = true) → 10 ^ 7 < digitsValue d → digitsValue d ≤ 10 ^ 10 →
      r.length = 3 → (∀ c ∈ r, c.isDigit = true) →
        ∃ text, zone.epochLiteral d = .converted text ∧ zone.epochLiteral (d ++ r) = .converted text) ∧
      ∀ s s' : List Char, WordByWord MillisAdded s s' → zone.convertEpochs s' = zone.convertEpochs s := by
  constructor
  · intro d r hd hlow hhigh hlength hr
    exact epochLiteral_append zone hd hlow hhigh hlength hr
  · intro s s' h
    have htext := h.mapWords_eq (fun h => h.isWord) (f := zone.epochText) fun h => h.epochText_eq zone
    have hcount := h.countP_words (fun h => h.isWord) (p := isEpochWord) rfl fun h => h.isEpochWord_eq
    rw [convertEpochs_eq, convertEpochs_eq, htext, hcount]

/-- The first of two seconds becomes milliseconds. -/
theorem convertEpochs_millis_first :
    WordByWord MillisAdded "(1609459200,1700000000)".toList "(1609459200999,1700000000)".toList ∧
      Zone.utc.convertEpochs "(1609459200999,1700000000)".toList =
        Zone.utc.convertEpochs "(1609459200,1700000000)".toList ∧
      ∃ text, Zone.utc.epochLiteral "1609459200".toList = .converted text ∧
        Zone.utc.epochLiteral ("1609459200".toList ++ "999".toList) = .converted text := by
  have hfirst : isEpochWord "1609459200".toList = true := by decide
  have hsecond : isEpochWord "1700000000".toList = true := by decide
  have hr : ∀ c ∈ "999".toList, c.isDigit = true := List.all_eq_true.1 (by decide)
  have hword {w : List Char} (hw : isEpochWord w = true) : ∀ c ∈ w, isWord c = true :=
    fun c hc => isWord_of_isDigit ((isEpochWord_iff.1 hw).2.1 c hc)
  have hbehind : WordByWord MillisAdded ("1700000000".toList ++ [')']) ("1700000000".toList ++ [')']) :=
    .cons (hword hsecond) (.inl rfl) (by decide) (.word nofun (.inl rfl))
  have hvalues : WordByWord MillisAdded ("1609459200".toList ++ ',' :: ("1700000000".toList ++ [')']))
      (("1609459200".toList ++ "999".toList) ++ ',' :: ("1700000000".toList ++ [')'])) :=
    .cons (hword hfirst) (.inr ⟨⟨hfirst, rfl⟩, _, rfl, hr, rfl⟩) (by decide) hbehind
  have hempty : MillisAdded [] [] := .inl rfl
  have h : WordByWord MillisAdded ([] ++ '(' :: _) ([] ++ '(' :: _) := .cons nofun hempty (by decide) hvalues
  have hdigits : ∀ c ∈ "1609459200".toList, c.isDigit = true := (isEpochWord_iff.1 hfirst).2.1
  exact ⟨h, (convertEpochs_millis .utc).2 _ _ h,
    (convertEpochs_millis .utc).1 _ _ hdigits (by decide +kernel) (by decide +kernel) rfl hr⟩

end SqlDump.Time
