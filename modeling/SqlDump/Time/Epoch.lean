import SqlDump.Time.Stamp
import SqlDump.Text.Word
/-!
# Epoch values

SQLite has no type for dates, so that dumps hold seconds or milliseconds since 1970 as plain
numbers. Any word of 10 to 13 digits that starts with `1` is taken for such a value and written as a
quoted time stamp.
-/

namespace SqlDump.Time

open Text

/-- The time zone that time stamps are written in. -/
inductive Zone where
  | utc
  | localTime
deriving DecidableEq, Repr

/-- Local time is five and a half hours ahead of UTC all year. -/
def Zone.offset : Zone → Int
  | .utc => 0
  | .localTime => 19800

/-- The first second that can be written, -262143-01-01 00:00:00. -/
def earliest : Int := -8334601228800

/-- The last second that can be written, +262142-12-31 23:59:59. -/
def latest : Int := 8210266876799

/-- Numbers above this are milliseconds. -/
def millisThreshold : Int := 10000000000

/-- Epoch seconds as a time stamp. The range is judged in UTC, before the offset of the zone. -/
def Zone.format? (zone : Zone) (seconds : Int) : Option (List Char) :=
  if earliest ≤ seconds ∧ seconds ≤ latest then some (Stamp.ofSeconds (seconds + zone.offset)).text
  else none

/-- The value of a text of ASCII digits, at least one. -/
def readNat? (s : List Char) : Option Nat :=
  if !s.isEmpty && s.all Char.isDigit then
    some (s.foldl (fun n c => 10 * n + (c.toNat - '0'.toNat)) 0)
  else none

/-- The value of a text that holds an integer of 64 bits: at most one sign, then digits. -/
def readInt64? (s : List Char) : Option Int :=
  let value : Option Int := match s with
    | '-' :: digits => (readNat? digits).map fun n => -(n : Int)
    | '+' :: digits => (readNat? digits).map fun n => (n : Int)
    | digits => (readNat? digits).map fun n => (n : Int)
  value.filter fun n => -0x8000000000000000 ≤ n && n < 0x8000000000000000

/-- The seconds that an epoch value stands for, milliseconds being cut off. -/
def secondsOf (value : Int) : Int := if value > millisThreshold then value / 1000 else value

/-- What an epoch value is written as: a time stamp, or its own digits where there is none. -/
inductive EpochLiteral where
  | converted (text : List Char)
  | fallback (text : List Char)
deriving DecidableEq, Repr

/-- The text of a literal. -/
def EpochLiteral.text : EpochLiteral → List Char
  | .converted s => s
  | .fallback s => s

/-- Whether a literal is a time stamp. -/
def EpochLiteral.isConverted : EpochLiteral → Bool
  | .converted _ => true
  | .fallback _ => false

/-- A text between single quotes. -/
def singleQuoted (s : List Char) : List Char := '\x27' :: (s ++ ['\x27'])

/-- The literal for an epoch value. -/
def Zone.epochLiteral (zone : Zone) (digits : List Char) : EpochLiteral :=
  match (readInt64? digits).bind fun value => zone.format? (secondsOf value) with
  | some stamp => .converted (singleQuoted stamp)
  | none => .fallback (singleQuoted digits)

/-- A word of 10 to 13 digits that starts with `1`. -/
def epochWord : Pattern (List Char) := fun before s =>
  if !endsInWord before && s.head? == some '1' then
    let digits := s.takeWhile Char.isDigit
    if 10 ≤ digits.length && digits.length ≤ 13 && !startsInWord (s.drop digits.length) then
      some ⟨digits.length, digits⟩
    else none
  else none

/-- How many epoch values became time stamps and how many did not. -/
structure EpochCounts where
  converted : Nat
  unconverted : Nat
deriving DecidableEq, Repr

/-- Writes every epoch value of a text as a literal, and counts them. -/
def Zone.convertEpochs (zone : Zone) (s : List Char) : List Char × EpochCounts :=
  let found := pieces epochWord s
  let literals := (found.filterMap Piece.value?).map zone.epochLiteral
  (found.flatMap (Piece.text fun digits => (zone.epochLiteral digits).text),
    ⟨literals.countP EpochLiteral.isConverted, literals.countP fun l => !l.isConverted⟩)

end SqlDump.Time
