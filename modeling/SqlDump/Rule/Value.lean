import SqlDump.Text.Scan
/-!
# Values

Replacements of fixed texts in value lists and column defaults. They look at the characters next to
a value and not at its column's type.
-/

namespace SqlDump.Rule

open Text

/-- A default of the current time, without its parentheses. -/
def plainDefaultTime (s : List Char) : List Char :=
  replaceAll (literal "DEFAULT (CURRENT_TIMESTAMP)".toList "DEFAULT CURRENT_TIMESTAMP".toList) s

/-- A first value `NULL` becomes `DEFAULT`, so that the table's sequence gives the key. -/
def defaultLeadingNull (s : List Char) : List Char :=
  replaceAll (literal "VALUES(NULL,".toList "VALUES(DEFAULT,".toList) s

/-- The places where `0` and `1` are taken for truth values, in the order of the passes. -/
def booleanPlaces : List (String × String) :=
  [(",0,", ",FALSE,"), (",1,", ",TRUE,"), ("(0,", "(FALSE,"), ("(1,", "(TRUE,"), (",0)", ",FALSE)"),
    (",1)", ",TRUE)")]

/-- Writes `0` and `1` at the borders of a value list as truth values, in one pass for each place.
The hits of a pass do not overlap: of `,0,0,` only the first zero changes. -/
def booleanValues (s : List Char) : List Char :=
  booleanPlaces.foldl (fun s place => replaceAll (literal place.1.toList place.2.toList) s) s

end SqlDump.Rule
