import SqlDump.Proofs.Time.Literal
/-!
# Reading a time stamp back

`Stamp.read?` reads a stamp from its text, with a year of any length and sign. Between the seconds
that can be written and their texts nothing is lost: `format_reads_back` finds the calendar time and
from it the seconds again, in both zones and for years before 0 and after 9999 as well.
-/

namespace SqlDump.Time

open Text

/-- The number at the front of a text, up to the first character that is no digit, and what is behind
it. -/
def takeNumber? (s : List Char) : Option (Nat × List Char) :=
  let digits := s.takeWhile Char.isDigit
  (readNat? digits).map fun n => (n, s.drop digits.length)

/-- The number behind a mark. -/
def takeBehind? (mark : Char) : List Char → Option (Nat × List Char)
  | [] => none
  | c :: s => if c = mark then takeNumber? s else none

/-- A year, which may have a sign. -/
def takeYear? : List Char → Option (Int × List Char)
  | '-' :: s => (takeNumber? s).map fun p => (-p.1, p.2)
  | '+' :: s => (takeNumber? s).map fun p => (p.1, p.2)
  | s => (takeNumber? s).map fun p => (p.1, p.2)

/-- Reads a stamp. Nothing may stand behind its seconds. -/
def Stamp.read? (s : List Char) : Option Stamp := do
  let (year, s) ← takeYear? s
  let (month, s) ← takeBehind? '-' s
  let (day, s) ← takeBehind? '-' s
  let (hour, s) ← takeBehind? ' ' s
  let (minute, s) ← takeBehind? ':' s
  let (second, s) ← takeBehind? ':' s
  if s = [] then some ⟨⟨year, month, day⟩, hour, minute, second⟩ else none

/-- The day is one of the calendar and the time is one of the day. -/
structure Stamp.Valid (t : Stamp) : Prop where
  date : t.date.Valid
  hour : t.hour < 24
  minute : t.minute < 60
  second : t.second < 60

/-! ## The reader finds what was written -/

theorem takeNumber?_append {digits rest : List Char} (h : IsDigits digits)
    (hstop : rest.head?.any Char.isDigit = false) :
    takeNumber? (digits ++ rest) = some (digitsValue digits, rest) := by
  simp [takeNumber?, takeWhile_append_of_stop h.2 hstop, readNat?_digits h]

theorem takeBehind?_twoDigits (mark : Char) {n : Nat} (hn : n < 100) {rest : List Char}
    (hstop : rest.head?.any Char.isDigit = false) :
    takeBehind? mark (mark :: (twoDigits n ++ rest)) = some (n, rest) := by
  have hvalue : digitsValue (twoDigits n) = n := by
    rw [digitsValue_twoDigits, Nat.mod_eq_of_lt hn]
  rw [takeBehind?, if_pos rfl, takeNumber?_append (isDigits_twoDigits n) hstop, hvalue]

theorem takeYear?_digits {digits : List Char} (h : IsDigits digits) (rest : List Char) :
    takeYear? (digits ++ rest) = (takeNumber? (digits ++ rest)).map fun p => ((p.1 : Int), p.2) := by
  obtain ⟨c, digits, rfl⟩ := List.exists_cons_of_ne_nil h.1
  obtain ⟨hminus, hplus⟩ := h.not_sign
  rw [List.cons_append, takeYear?]
  · exact fun _ hs => hminus (List.cons.inj hs).1
  · exact fun _ hs => hplus (List.cons.inj hs).1

theorem takeYear?_yearText (year : Int) {rest : List Char} (hstop : rest.head?.any Char.isDigit = false) :
    takeYear? (yearText year ++ rest) = some (year, rest) := by
  have hdigits := isDigits_fourDigits year.natAbs
  have hnumber := takeNumber?_append hdigits hstop
  rw [digitsValue_fourDigits] at hnumber
  unfold yearText
  split
  case isTrue hneg =>
    rw [List.cons_append, takeYear?, hnumber, Option.map_some, Int.ofNat_natAbs_of_nonpos (by omega), Int.neg_neg]
  case isFalse hnonneg =>
    have habs : (year.natAbs : Int) = year := Int.natAbs_of_nonneg (by omega)
    split
    · rw [takeYear?_digits hdigits, hnumber, Option.map_some, habs]
    · rw [List.cons_append, takeYear?, hnumber, Option.map_some, habs]

/-- A stamp is read from its text. -/
theorem Stamp.read?_text {t : Stamp} (h : t.Valid) : Stamp.read? t.text = some t := by
  obtain ⟨⟨year, month, day⟩, hour, minute, second⟩ := t
  obtain ⟨⟨-, hmonth, -, hday⟩, hhour, hminute, hsecond⟩ := h
  dsimp only at hmonth hday hhour hminute hsecond
  have hlength : daysInMonth year month ≤ 31 := daysInMonth_le year month
  have htext : Stamp.text ⟨⟨year, month, day⟩, hour, minute, second⟩ = yearText year ++ '-' ::
      (twoDigits month ++ '-' :: (twoDigits day ++ ' ' :: (twoDigits hour ++ ':' ::
        (twoDigits minute ++ ':' :: (twoDigits second ++ []))))) := by
    simp [Stamp.text]
  have dash (s : List Char) : ('-' :: s).head?.any Char.isDigit = false := rfl
  have space (s : List Char) : (' ' :: s).head?.any Char.isDigit = false := rfl
  have colon (s : List Char) : (':' :: s).head?.any Char.isDigit = false := rfl
  have stop : ([] : List Char).head?.any Char.isDigit = false := rfl
  -- each field is read up to the mark behind it
  simp only [Stamp.read?, htext, Option.bind_eq_bind, Option.bind_some, takeYear?_yearText year (dash _),
    takeBehind?_twoDigits '-' (by omega : month < 100) (dash _),
    takeBehind?_twoDigits '-' (by omega : day < 100) (space _),
    takeBehind?_twoDigits ' ' (by omega : hour < 100) (colon _),
    takeBehind?_twoDigits ':' (by omega : minute < 100) (colon _),
    takeBehind?_twoDigits ':' (by omega : second < 100) stop, if_true]

/-! ## Stamps and seconds -/

theorem Stamp.valid_ofSeconds (n : Int) : (Stamp.ofSeconds n).Valid where
  date := valid_ofDayNumber _
  hour := by
    simp only [Stamp.ofSeconds]
    omega
  minute := Nat.mod_lt _ (by decide)
  second := Nat.mod_lt _ (by decide)

/-- The stamp of a number of seconds lies that many seconds behind 1970. -/
theorem Stamp.seconds_ofSeconds (n : Int) : (Stamp.ofSeconds n).seconds = n := by
  simp only [Stamp.seconds, Stamp.ofSeconds, dayNumber_ofDayNumber]
  omega

/-! ## The form of a text -/

/-- The form of a stamp whose year has a sign and so many digits. -/
def signedForm (sign : Char) (digits : Nat) : List Char :=
  sign :: (List.replicate digits 'Y' ++ "-MM-DD HH:MM:SS".toList)

/-- Years from 0 to 9999 have four digits. Other years have a sign and four digits or more. -/
def HasYearForm (t : Stamp) (text : List Char) : Prop :=
  if 0 ≤ t.date.year ∧ t.date.year ≤ 9999 then HasForm stampForm text
  else ∃ digits, 4 ≤ digits ∧ HasForm (signedForm (if t.date.year < 0 then '-' else '+') digits) text

theorem Stamp.hasYearForm_text (t : Stamp) : HasYearForm t t.text := by
  have hdigits := hasForm_digits (isDigits_fourDigits t.date.year.natAbs).2
  have hlong := four_le_length_fourDigits t.date.year.natAbs
  unfold HasYearForm
  split
  case isTrue h => exact (Stamp.text_form h.1 (by omega)).1
  case isFalse h =>
    refine ⟨_, hlong, ?_⟩
    have hyear : HasForm ((if t.date.year < 0 then '-' else '+') ::
        List.replicate (fourDigits t.date.year.natAbs).length 'Y') (yearText t.date.year) := by
      unfold yearText
      split
      · exact (hasForm_self (c := '-')).append hdigits
      · rw [if_neg (by omega)]
        exact (hasForm_self (c := '+')).append hdigits
    exact t.text_form_behind hyear

/-! ## The whole of a time stamp -/

theorem format?_eq_some_iff {zone : Zone} {seconds : Int} {text : List Char} :
    zone.format? seconds = some text ↔ (earliest ≤ seconds ∧ seconds ≤ latest) ∧
      (Stamp.ofSeconds (seconds + zone.offset)).text = text := by
  unfold Zone.format?
  split
  case isTrue h => exact ⟨fun heq => ⟨h, Option.some.inj heq⟩, fun heq => congrArg some heq.2⟩
  case isFalse h => exact ⟨nofun, fun heq => absurd heq.1 h⟩

/-- The seconds that can be written lie between two bounds, the same ones in both zones. What is written
for them is the text of a time of the calendar, which counts to the seconds again, shifted by the
zone. Different seconds have different texts, and local time is the universal time of 19800 seconds later. -/
theorem format_reads_back (zone : Zone) (seconds : Int) :
    ((zone.format? seconds).isSome = true ↔ -8334601228800 ≤ seconds ∧ seconds ≤ 8210266876799) ∧
      (∀ text, zone.format? seconds = some text → ∃ t : Stamp, Stamp.read? text = some t ∧ t.Valid ∧
        t.seconds = seconds + (match zone with | .utc => 0 | .localTime => 19800) ∧ HasYearForm t text) ∧
      (∀ seconds' text, zone.format? seconds = some text → zone.format? seconds' = some text →
        seconds' = seconds) ∧
      ∀ text text', Zone.localTime.format? seconds = some text →
        Zone.utc.format? (seconds + 19800) = some text' → text = text' := by
  have hread : ∀ {n text}, zone.format? n = some text →
      Stamp.read? text = some (Stamp.ofSeconds (n + zone.offset)) := by
    intro n text h
    obtain ⟨-, rfl⟩ := format?_eq_some_iff.1 h
    exact Stamp.read?_text (Stamp.valid_ofSeconds _)
  refine ⟨?_, ?_, ?_, ?_⟩
  · simp [Option.isSome_iff_exists, format?_eq_some_iff, earliest, latest]
  · intro text h
    refine ⟨_, hread h, Stamp.valid_ofSeconds _, ?_, ?_⟩
    · rw [Stamp.seconds_ofSeconds]
      cases zone <;> rfl
    · obtain ⟨-, rfl⟩ := format?_eq_some_iff.1 h
      exact Stamp.hasYearForm_text _
  · intro seconds' text h h'
    have heq := Option.some.inj ((hread h').symm.trans (hread h))
    have hcount := congrArg Stamp.seconds heq
    rw [Stamp.seconds_ofSeconds, Stamp.seconds_ofSeconds] at hcount
    omega
  · intro text text' h h'
    obtain ⟨-, rfl⟩ := format?_eq_some_iff.1 h
    obtain ⟨-, rfl⟩ := format?_eq_some_iff.1 h'
    rw [Zone.offset, Zone.offset, Int.add_zero]

/-- The last second before year 0, at which the local year is 0 already. -/
theorem format_reads_back_before_zero :
    (Zone.utc.format? (-62167219201) = some "-0001-12-31 23:59:59".toList ∧
      ∃ t : Stamp, Stamp.read? "-0001-12-31 23:59:59".toList = some t ∧ t.Valid ∧
        t.seconds = -62167219201 + 0 ∧ HasYearForm t "-0001-12-31 23:59:59".toList) ∧
      ∃ text text', Zone.localTime.format? (-62167219201) = some text ∧
        Zone.utc.format? (-62167219201 + 19800) = some text' ∧ text = text' ∧
        ∀ seconds, Zone.localTime.format? seconds = some text → seconds = -62167219201 := by
  have hutc : Zone.utc.format? (-62167219201) = some "-0001-12-31 23:59:59".toList := by decide +kernel
  have hlocal : Zone.localTime.format? (-62167219201) = some "0000-01-01 05:29:59".toList := by decide +kernel
  have hshifted : Zone.utc.format? (-62167219201 + 19800) = some "0000-01-01 05:29:59".toList := by
    decide +kernel
  obtain ⟨-, -, hinjective, hshift⟩ := format_reads_back .localTime (-62167219201)
  exact ⟨⟨hutc, (format_reads_back .utc (-62167219201)).2.1 _ hutc⟩, _, _, hlocal, hshifted,
    hshift _ _ hlocal hshifted, fun seconds h => hinjective seconds _ hlocal h⟩

end SqlDump.Time
