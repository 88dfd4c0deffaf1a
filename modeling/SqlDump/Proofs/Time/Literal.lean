import SqlDump.Proofs.Time.Epoch
/-!
# The literals for epoch values

Ten to thirteen digits with a `1` in front reach from 1970 to 2286 in either reading, so that every
literal has the same form and the same length. `convertEpochs_stamps` puts the whole rule together:
which words it writes, what it writes for them, and that nothing is left for a second time.
-/

namespace SqlDump.Time

open Text

/-- The form of a time stamp. Each letter stands for a digit. -/
def stampForm : List Char := "YYYY-MM-DD HH:MM:SS".toList

/-- A text that has a digit for each letter of a form, and is the same as the form elsewhere. -/
def HasForm (form s : List Char) : Prop :=
  List.Forall₂ (fun p c => if p.isAlpha then c.isDigit = true else c = p) form s

/-! ## The form of a stamp -/

theorem HasForm.append {form form' s s' : List Char} (h : HasForm form s) (h' : HasForm form' s') :
    HasForm (form ++ form') (s ++ s') := List.rel_append h h'

theorem HasForm.length_eq {form s : List Char} (h : HasForm form s) : s.length = form.length :=
  (List.Forall₂.length_eq h).symm

theorem hasForm_twoDigits {p q : Char} (n : Nat) (hp : p.isAlpha = true := by decide)
    (hq : q.isAlpha = true := by decide) : HasForm [p, q] (twoDigits n) := by
  simp [HasForm, twoDigits, hp, hq, isDigit_digit]

theorem hasForm_self {c : Char} (hc : c.isAlpha = false := by decide) : HasForm [c] [c] := by
  simp [HasForm, hc]

theorem hasForm_digits {s : List Char} (hs : ∀ c ∈ s, c.isDigit = true) :
    HasForm (List.replicate s.length 'Y') s := by
  induction s with
  | nil => exact List.Forall₂.nil
  | cons c s ih =>
    exact .cons (hs c List.mem_cons_self) (ih fun d hd => hs d (List.mem_cons_of_mem c hd))

/-- The text of a stamp behind its year. -/
theorem Stamp.text_form_behind (t : Stamp) {form : List Char} (h : HasForm form (yearText t.date.year)) :
    HasForm (form ++ "-MM-DD HH:MM:SS".toList) t.text := by
  have month : HasForm ['M', 'M'] (twoDigits t.date.month) := hasForm_twoDigits _
  have day : HasForm ['D', 'D'] (twoDigits t.date.day) := hasForm_twoDigits _
  have hour : HasForm ['H', 'H'] (twoDigits t.hour) := hasForm_twoDigits _
  have minute : HasForm ['M', 'M'] (twoDigits t.minute) := hasForm_twoDigits _
  have second : HasForm ['S', 'S'] (twoDigits t.second) := hasForm_twoDigits _
  have dash : HasForm ['-'] ['-'] := hasForm_self
  have space : HasForm [' '] [' '] := hasForm_self
  have colon : HasForm [':'] [':'] := hasForm_self
  have htext : HasForm _ t.text := (((((((((h.append dash).append month).append dash).append day).append
    space).append hour).append colon).append minute).append colon).append second
  simpa using htext

/-- A stamp with a year of four digits has the form of one, and the year can be read from it. -/
theorem Stamp.text_form {t : Stamp} (h0 : 0 ≤ t.date.year) (h : t.date.year < 10000) :
    HasForm stampForm t.text ∧ readNat? (t.text.take 4) = some t.date.year.natAbs := by
  have hyear : yearText t.date.year = fourDigits t.date.year.natAbs := by
    unfold yearText
    rw [if_neg (by omega), if_pos h]
  have hlength : (fourDigits t.date.year.natAbs).length = 4 := by
    rw [fourDigits_of_lt (by omega)]
    rfl
  constructor
  · have hform := hasForm_digits (isDigits_fourDigits t.date.year.natAbs).2
    rw [hlength, ← hyear] at hform
    exact t.text_form_behind hform
  · have htake : t.text.take 4 = fourDigits t.date.year.natAbs := by
      simp [Stamp.text, hyear, hlength]
    rw [htake, readNat?_digits (isDigits_fourDigits _), digitsValue_fourDigits]

/-! ## The years that epoch values reach -/

/-- Every epoch value becomes a time stamp with a year from 1970 to 2286. -/
theorem epochLiteral_form (zone : Zone) {w : List Char} (hw : isEpochWord w = true) :
    ∃ stamp year, zone.epochLiteral w = .converted (singleQuoted stamp) ∧ HasForm stampForm stamp ∧
      readNat? (stamp.take 4) = some year ∧ 1970 ≤ year ∧ year ≤ 2286 := by
  obtain ⟨n, hn, hn', heq⟩ := epochLiteral_eq_ofSeconds zone hw
  have hyear : 1970 ≤ (Stamp.ofSeconds n).date.year ∧ (Stamp.ofSeconds n).date.year ≤ 2286 :=
    year_ofDayNumber (by omega) (by omega)
  obtain ⟨hform, hread⟩ := Stamp.text_form (t := .ofSeconds n) (by omega) (by omega)
  exact ⟨_, _, heq, hform, hread, by omega, by omega⟩

/-! ## The whole rule -/

/-- Exactly the words that are taken for epoch values are written, each of them as a time stamp in single
quotes and counted as one, and a second time, in either zone, there is nothing to write. -/
theorem convertEpochs_stamps (zone : Zone) (s : List Char) :
    zone.convertEpochs s =
        (mapWords (fun w => if isEpochWord w then (zone.epochLiteral w).text else w) s,
          ⟨(words s).countP isEpochWord, 0⟩) ∧
      (∀ w, isEpochWord w = true → ∃ value stamp year, readInt64? w = some value ∧
        zone.epochLiteral w = .converted (singleQuoted stamp) ∧ (singleQuoted stamp).length = 21 ∧
        HasForm stampForm stamp ∧ readNat? (stamp.take 4) = some year ∧ 1970 ≤ year ∧ year ≤ 2286) ∧
      ∀ zone' : Zone, zone'.convertEpochs (zone.convertEpochs s).1 = ((zone.convertEpochs s).1, ⟨0, 0⟩) := by
  refine ⟨convertEpochs_eq zone s, ?_, ?_⟩
  · intro w hw
    obtain ⟨value, -, -, hvalue⟩ := readInt64_of_isEpochWord hw
    obtain ⟨stamp, year, heq, hform, hyear⟩ := epochLiteral_form zone hw
    have hlength : (singleQuoted stamp).length = 21 := by
      have hstamp : stamp.length = 19 := hform.length_eq
      simp [singleQuoted, hstamp]
    exact ⟨value, stamp, year, hvalue, heq, hlength, hform, hyear⟩
  · intro zone'
    apply convertEpochs_eq_self
    exact no_epoch_convertEpochs zone s

/-- A number of 10 digits is written, the one behind it has a digit too many. -/
theorem convertEpochs_stamps_values :
    Zone.utc.convertEpochs "(1609459200,16094592000001)".toList =
        ("(\x272021-01-01 00:00:00\x27,16094592000001)".toList, ⟨1, 0⟩) ∧
      isEpochWord "1609459200".toList = true ∧
      ∃ value stamp year, readInt64? "1609459200".toList = some value ∧
        Zone.utc.epochLiteral "1609459200".toList = .converted (singleQuoted stamp) ∧
        (singleQuoted stamp).length = 21 ∧ HasForm stampForm stamp ∧
        readNat? (stamp.take 4) = some year ∧ 1970 ≤ year ∧ year ≤ 2286 := by
  have h := convertEpochs_stamps .utc "(1609459200,16094592000001)".toList
  have hw : isEpochWord "1609459200".toList = true := by decide
  refine ⟨?_, hw, h.2.1 _ hw⟩
  rw [h.1]
  decide +kernel

end SqlDump.Time
