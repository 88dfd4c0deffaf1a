import SqlDump.Text.Word
/-!
# Keywords

Type names and truth values are written in capitals, and a counting key has its own type. Each rule
acts on whole words only, so that `context` and `realm` stay as they are.
-/

namespace SqlDump.Rule

open Text

/-- Writes one type name in capitals, however it is written. -/
def upcaseType (name : String) (s : List Char) : List Char :=
  replaceAll (wholeWord foldCase name.toList (name.toList.map Char.toUpper)) s

/-- The type names, in the order in which they are looked for. -/
def typeNames : List String := ["integer", "text", "real", "numeric"]

/-- Writes the type names in capitals. -/
def upcaseTypes (s : List Char) : List Char := typeNames.foldl (fun s name => upcaseType name s) s

/-- Writes the truth values `false` and `true` in capitals. Other spellings stay. -/
def upcaseBooleans (s : List Char) : List Char :=
  replaceAll (wholeWord id "true".toList "TRUE".toList)
    (replaceAll (wholeWord id "false".toList "FALSE".toList) s)

/-- Declares a counting key by its type `SERIAL`. -/
def serialKeys (s : List Char) : List Char :=
  replaceAll (wholeWord foldCase "integer primary key autoincrement".toList
    "SERIAL PRIMARY KEY".toList) s

end SqlDump.Rule
