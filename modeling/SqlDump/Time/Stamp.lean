import SqlDump.Time.Calendar
/-!
# Time stamps

A date with a time of day, written `YYYY-MM-DD HH:MM:SS`.
-/

namespace SqlDump.Time

/-- A date and a time of day. -/
structure Stamp where
  date : Date
  hour : Nat
  minute : Nat
  second : Nat
deriving DecidableEq, Repr

/-- The stamp of a number of seconds since 1970-01-01 00:00:00. -/
def Stamp.ofSeconds (n : Int) : Stamp :=
  let secondOfDay := (n % 86400).toNat
  ⟨.ofDayNumber (n / 86400), secondOfDay / 3600, secondOfDay / 60 % 60, secondOfDay % 60⟩

/-- The seconds from 1970-01-01 00:00:00 to a stamp. -/
def Stamp.seconds (t : Stamp) : Int :=
  86400 * t.date.dayNumber + 3600 * t.hour + 60 * t.minute + t.second

/-- One decimal digit. -/
def digit (n : Nat) : Char := Char.ofNat ('0'.toNat + n % 10)

/-- The last two decimal digits of a number. -/
def twoDigits (n : Nat) : List Char := [digit (n / 10), digit n]

/-- At least four decimal digits of a number. -/
def fourDigits (n : Nat) : List Char :=
  if n < 10000 then twoDigits (n / 100) ++ twoDigits n else Nat.toDigits 10 n

/-- Years 0 to 9999 have four digits. Other years have a sign and at least four digits. -/
def yearText (year : Int) : List Char :=
  if year < 0 then '-' :: fourDigits year.natAbs
  else if year < 10000 then fourDigits year.natAbs
  else '+' :: fourDigits year.natAbs

/-- A stamp, written `YYYY-MM-DD HH:MM:SS`. -/
def Stamp.text (t : Stamp) : List Char :=
  yearText t.date.year ++ ['-'] ++ twoDigits t.date.month ++ ['-'] ++ twoDigits t.date.day ++ [' '] ++
    twoDigits t.hour ++ [':'] ++ twoDigits t.minute ++ [':'] ++ twoDigits t.second

end SqlDump.Time
