import Mathlib.Tactic.IntervalCases
import SqlDump.Time.Calendar
/-!
# Days by number and by date

A date is found from its number by years that start in March, and its number is counted by years
that start in January. `dayNumber_ofDayNumber` says that both agree on every day, before 1970 and
after. A day is first placed within its span of 400 years (`SpanDay`), where the leap day is the last
day of its year; everything else is a sum of days that are known in advance.
-/

namespace SqlDump.Time

/-! ## Days of a span -/

/-- A day of a span of 400 years that starts in March: the centuries, the spans of four years and the
years that have passed, and the days of the last year. The last century has a day more than the others,
and so has the last year of four, except at the end of a shorter century. -/
structure SpanDay where
  century : Nat
  fours : Nat
  year : Nat
  day : Nat
  century_le : century ≤ 3
  fours_le : fours ≤ 24
  year_le : year ≤ 3
  day_le : day ≤ 365
  year_of_leap_day : day = 365 → year = 3
  century_of_leap_day : day = 365 → fours = 24 → century = 3

namespace SpanDay

variable (p : SpanDay)

/-- The number of the day in its span. -/
def number : Nat := 36524 * p.century + (1461 * p.fours + (365 * p.year + p.day))

/-- The years of the span that have passed. -/
def yearOfSpan : Nat := 100 * p.century + 4 * p.fours + p.year

theorem number_lt : p.number < 146097 := by
  have := p.century_le
  have := p.fours_le
  have := p.year_le
  have := p.day_le
  have := p.year_of_leap_day
  have := p.century_of_leap_day
  simp only [number]
  omega

theorem exists_number {n : Nat} (h : n < 146097) : ∃ p : SpanDay, p.number = n := by
  obtain ⟨c, r, hc, rfl, hr, hlast⟩ : ∃ c r, c ≤ 3 ∧ n = 36524 * c + r ∧ r ≤ 36524 ∧ (r = 36524 → c = 3) :=
    ⟨min (n / 36524) 3, n - 36524 * min (n / 36524) 3, by omega, by omega, by omega, by omega⟩
  obtain ⟨y, d, hy, hd, hday, hleap⟩ : ∃ y d, y ≤ 3 ∧ r % 1461 = 365 * y + d ∧ d ≤ 365 ∧ (d = 365 → y = 3) :=
    ⟨min (r % 1461 / 365) 3, r % 1461 - 365 * min (r % 1461 / 365) 3, by omega, by omega, by omega, by omega⟩
  refine ⟨⟨c, r / 1461, y, d, hc, by omega, hy, hday, hleap, ?_⟩, ?_⟩
  · intro hd365 hfours
    have := hleap hd365
    exact hlast (by omega)
  · simp only [number]
    omega

/-- Only the last day of a span stands behind four full centuries. -/
theorem number_div_century : p.number / 36524 = p.century + p.number / 146096 := by
  obtain ⟨c, f, y, d, hc, hf, hy, hd, hyear, hcentury⟩ := p
  simp only [number]
  obtain ⟨r, hr⟩ : ∃ r, r = 1461 * f + (365 * y + d) := ⟨_, rfl⟩
  have hle : r ≤ 36524 := by omega
  have hlast : r = 36524 → c = 3 := fun h => hcentury (by omega) (by omega)
  rw [← hr]
  clear hr hyear hcentury
  by_cases h : r = 36524
  · rw [h, hlast h]
  · have hcenturies : (36524 * c + r) / 36524 = c := by omega
    have hspan : (36524 * c + r) / 146096 = 0 := by omega
    rw [hcenturies, hspan, Nat.add_zero]

/-- Spans of 1460 days lack the leap days. -/
theorem number_div_fours :
    p.number / 1460 =
      25 * p.century + p.fours + (24 * p.century + p.fours + (365 * p.year + p.day)) / 1460 := by
  have hsplit : p.number = 1460 * (25 * p.century + p.fours) +
      (24 * p.century + p.fours + (365 * p.year + p.day)) := by
    simp only [number]
    omega
  rw [hsplit, Nat.mul_add_div (by decide)]

/-- The days that are left without the leap days before them are full years and the rest of one. -/
theorem yearOfSpan_eq :
    (p.number - p.number / 1460 + p.number / 36524 - p.number / 146096) / 365 = p.yearOfSpan := by
  have hbefore : 24 * p.century + p.fours ≤ 96 := by
    have := p.century_le
    have := p.fours_le
    omega
  have hyear := p.year_le
  have hday := p.day_le
  have hleap := p.year_of_leap_day
  -- the leap day of the own year is one of those before, if it is reached
  have hrest : (365 * p.year + p.day -
      (24 * p.century + p.fours + (365 * p.year + p.day)) / 1460) / 365 = p.year := by
    omega
  have hle : (24 * p.century + p.fours + (365 * p.year + p.day)) / 1460 ≤ 365 * p.year + p.day := by
    omega
  have hplain : p.number - p.number / 1460 + p.number / 36524 - p.number / 146096 =
      365 * (100 * p.century + 4 * p.fours) + (365 * p.year + p.day -
        (24 * p.century + p.fours + (365 * p.year + p.day)) / 1460) := by
    rw [p.number_div_century, p.number_div_fours]
    generalize (24 * p.century + p.fours + (365 * p.year + p.day)) / 1460 = leap at hle ⊢
    generalize p.number / 146096 = last
    simp only [number]
    omega
  rw [hplain, Nat.mul_add_div (by decide), hrest, yearOfSpan]

theorem yearOfSpan_lt : p.yearOfSpan < 400 := by
  have := p.century_le
  have := p.fours_le
  have := p.year_le
  simp only [yearOfSpan]
  omega

/-- The days of the years that have passed. -/
theorem number_eq :
    p.number = 365 * p.yearOfSpan + p.yearOfSpan / 4 - p.yearOfSpan / 100 + p.day := by
  have hfours : p.yearOfSpan / 4 = 25 * p.century + p.fours := by
    have := p.year_le
    simp only [yearOfSpan]
    omega
  have hcentury : p.yearOfSpan / 100 = p.century := by
    have := p.year_le
    have := p.fours_le
    simp only [yearOfSpan]
    omega
  rw [hfours, hcentury]
  simp only [number, yearOfSpan]
  omega

end SpanDay

/-! ## Months that start in March -/

/-- The days from the start of March to the start of a month, of which so many have passed. -/
def daysFromMarch (passed : Nat) : Nat := (153 * passed + 2) / 5

/-- The date that lies so many months and days behind the start of March. -/
def marchDate (year : Int) (passed days : Nat) : Date :=
  if passed < 10 then ⟨year, passed + 3, days + 1⟩ else ⟨year + 1, passed - 9, days + 1⟩

/-- The months of a day of a year that starts in March. -/
theorem month_of_day {day : Nat} (h : day ≤ 365) :
    (5 * day + 2) / 153 ≤ 11 ∧ daysFromMarch ((5 * day + 2) / 153) ≤ day ∧
      day < daysFromMarch ((5 * day + 2) / 153 + 1) := by
  unfold daysFromMarch
  omega

theorem ofDayNumber_eq (span : Int) (p : SpanDay) :
    Date.ofDayNumber (146097 * span + p.number - 719468) =
      marchDate (400 * span + p.yearOfSpan) ((5 * p.day + 2) / 153)
        (p.day - daysFromMarch ((5 * p.day + 2) / 153)) := by
  have hlt := p.number_lt
  have hshift : 146097 * span + p.number - 719468 + 719468 = (p.number : Int) + 146097 * span := by omega
  have hspan : ((p.number : Int) + 146097 * span) / 146097 = span := by omega
  have hday : (((p.number : Int) + 146097 * span) % 146097).toNat = p.number := by omega
  have hyear : p.number - (365 * p.yearOfSpan + p.yearOfSpan / 4 - p.yearOfSpan / 100) = p.day := by
    have := p.number_eq
    omega
  simp only [Date.ofDayNumber, hshift, hspan, hday, p.yearOfSpan_eq, hyear]
  obtain ⟨hmonth, -, -⟩ := month_of_day p.day_le
  unfold marchDate daysFromMarch
  generalize (5 * p.day + 2) / 153 = passed at *
  by_cases h : passed < 10
  · have : ¬ passed + 3 ≤ 2 := by omega
    simp only [h, if_true, this, if_false]
    simp [Int.mul_comm]
  · have : passed - 9 ≤ 2 := by omega
    simp only [h, if_false, this, if_true]
    simp [Int.mul_comm, Int.add_assoc]

/-! ## Counting the days -/

theorem isLeapYear_iff {year : Int} :
    isLeapYear year = true ↔ year % 4 = 0 ∧ (year % 100 ≠ 0 ∨ year % 400 = 0) := by
  simp [isLeapYear]

theorem daysBeforeYear_succ (year : Int) :
    daysBeforeYear (year + 1) = daysBeforeYear year + if isLeapYear year then 366 else 365 := by
  simp only [daysBeforeYear, isLeapYear_iff]
  split <;> omega

theorem daysBeforeMonth_from_march {passed : Nat} (h : passed < 10) (year : Int) :
    daysBeforeMonth year (passed + 3) = (if isLeapYear year then 60 else 59) + daysFromMarch passed := by
  by_cases hleap : isLeapYear year = true
  · interval_cases passed <;> simp [daysBeforeMonth, daysInMonth, daysFromMarch, List.range_succ, hleap]
  · interval_cases passed <;> simp [daysBeforeMonth, daysInMonth, daysFromMarch, List.range_succ, hleap]

theorem daysBeforeMonth_to_march {passed : Nat} (h : 10 ≤ passed) (h' : passed ≤ 11) (year : Int) :
    daysBeforeMonth year (passed - 9) + 306 = daysFromMarch passed := by
  interval_cases passed <;> simp [daysBeforeMonth, daysInMonth, daysFromMarch, List.range_succ]

/-- Counted from March on, the months are as long in every year. -/
theorem dayNumber_marchDate {passed : Nat} (h : passed ≤ 11) (year : Int) (days : Nat) :
    (marchDate year passed days).dayNumber =
      daysBeforeYear (year + 1) + daysFromMarch passed + days - 719468 := by
  unfold marchDate
  split
  case isTrue hlt =>
    have hmonths := daysBeforeMonth_from_march hlt year
    have hyear := daysBeforeYear_succ year
    simp only [Date.dayNumber]
    by_cases hleap : isLeapYear year = true
    · rw [if_pos hleap] at hmonths hyear
      omega
    · rw [if_neg hleap] at hmonths hyear
      omega
  case isFalse hge =>
    have hmonths := daysBeforeMonth_to_march (Nat.le_of_not_lt hge) h (year + 1)
    simp only [Date.dayNumber]
    omega

/-- Each span of 400 years has 97 leap days. -/
theorem daysBeforeYear_span (span : Int) {year : Nat} (h : year < 400) :
    daysBeforeYear (400 * span + year + 1) = 146097 * span + (365 * year + year / 4 - year / 100 : Nat) := by
  have hfours : (400 * span + year : Int) / 4 = 100 * span + (year / 4 : Nat) := by omega
  have hcenturies : (400 * span + year : Int) / 100 = 4 * span + (year / 100 : Nat) := by omega
  have hspans : (400 * span + year : Int) / 400 = span := by omega
  simp only [daysBeforeYear, Int.add_sub_cancel, hfours, hcenturies, hspans]
  omega

/-! ## Every day has its date -/

theorem exists_spanDay (n : Int) : ∃ (span : Int) (p : SpanDay), n = 146097 * span + p.number - 719468 := by
  obtain ⟨p, hp⟩ := SpanDay.exists_number (n := ((n + 719468) % 146097).toNat) (by omega)
  exact ⟨(n + 719468) / 146097, p, by omega⟩

/-- The date of a day number has that day number. -/
theorem dayNumber_ofDayNumber (n : Int) : (Date.ofDayNumber n).dayNumber = n := by
  obtain ⟨span, p, rfl⟩ := exists_spanDay n
  obtain ⟨hmonth, hstart, -⟩ := month_of_day p.day_le
  rw [ofDayNumber_eq, dayNumber_marchDate hmonth, daysBeforeYear_span span p.yearOfSpan_lt, p.number_eq]
  omega

theorem SpanDay.isLeapYear (span : Int) {p : SpanDay} (h : p.day = 365) :
    isLeapYear (400 * span + p.yearOfSpan + 1) = true := by
  obtain ⟨c, f, y, d, hc, hf, hy, hd, hyear, hcentury⟩ := p
  obtain rfl := hyear h
  have hfours : f ≤ 23 ∨ f = 24 ∧ c = 3 := by
    have := hcentury h
    omega
  rw [isLeapYear_iff]
  simp only [yearOfSpan]
  omega

theorem daysInMonth_le (year : Int) (month : Nat) : daysInMonth year month ≤ 31 := by
  unfold daysInMonth
  split
  · split <;> decide
  · split <;> decide

theorem daysInFebruary (year : Int) :
    daysInMonth year 2 = if isLeapYear year then 29 else 28 := rfl

/-- The month has that day, unless it is a 29 February of a year that is no leap year. -/
theorem valid_marchDate {passed days : Nat} {year : Int} (h : passed ≤ 11)
    (hend : daysFromMarch passed + days < daysFromMarch (passed + 1))
    (hleap : daysFromMarch passed + days < 365 ∨
      daysFromMarch passed + days = 365 ∧ isLeapYear (year + 1) = true) :
    (marchDate year passed days).Valid := by
  unfold daysFromMarch at hend hleap
  rcases Nat.lt_or_eq_of_le h with hlt | rfl
  · have hmonth : passed ≤ 10 := Nat.le_of_lt_succ hlt
    clear hleap
    interval_cases passed <;> simp [marchDate, Date.Valid, daysInMonth] <;> omega
  · have hday : days + 1 ≤ daysInMonth (year + 1) 2 := by
      rw [daysInFebruary]
      rcases hleap with hlt | ⟨heq, hleap⟩
      · split <;> omega
      · rw [if_pos hleap]
        omega
    show Date.Valid ⟨year + 1, 2, days + 1⟩
    exact ⟨Nat.le_succ 1, Nat.le_add_left 2 10, Nat.succ_pos days, hday⟩

/-- The date of a day number exists: its month has that day. -/
theorem valid_ofDayNumber (n : Int) : (Date.ofDayNumber n).Valid := by
  obtain ⟨span, p, rfl⟩ := exists_spanDay n
  obtain ⟨hmonth, hstart, hend⟩ := month_of_day p.day_le
  rw [ofDayNumber_eq]
  have hday := Nat.add_sub_of_le hstart
  refine valid_marchDate hmonth (by rw [hday]; exact hend) ?_
  rw [hday]
  rcases Nat.lt_or_eq_of_le p.day_le with hlt | heq
  · exact .inl hlt
  · exact .inr ⟨heq, p.isLeapYear span heq⟩

/-! ## The year of a day -/

theorem daysBeforeMonth_add_le (year : Int) {month : Nat} (h : 1 ≤ month) (h' : month ≤ 12) :
    daysBeforeMonth year month + daysInMonth year month ≤ if isLeapYear year then 366 else 365 := by
  by_cases hleap : isLeapYear year = true
  · interval_cases month <;> simp [daysBeforeMonth, daysInMonth, List.range_succ, hleap]
  · interval_cases month <;> simp [daysBeforeMonth, daysInMonth, List.range_succ, hleap]

/-- A date lies between the starts of its year and of the next one. -/
theorem Date.Valid.dayNumber_bounds {d : Date} (h : d.Valid) :
    daysBeforeYear d.year ≤ d.dayNumber + 719162 ∧ d.dayNumber + 719162 < daysBeforeYear (d.year + 1) := by
  obtain ⟨hmonth, hmonth', hday, hday'⟩ := h
  have hmonths := daysBeforeMonth_add_le d.year hmonth hmonth'
  rw [daysBeforeYear_succ]
  unfold Date.dayNumber
  by_cases hleap : isLeapYear d.year = true
  · rw [if_pos hleap] at hmonths ⊢
    omega
  · rw [if_neg hleap] at hmonths ⊢
    omega

/-- The first 115742 days reach into November 2286. -/
theorem year_ofDayNumber {n : Int} (h0 : 0 ≤ n) (h : n ≤ 115742) :
    1970 ≤ (Date.ofDayNumber n).year ∧ (Date.ofDayNumber n).year ≤ 2286 := by
  have hbounds := (valid_ofDayNumber n).dayNumber_bounds
  rw [dayNumber_ofDayNumber] at hbounds
  simp only [daysBeforeYear] at hbounds
  omega

end SqlDump.Time
