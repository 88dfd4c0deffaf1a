import SqlDump.Text.Blank
import SqlDump.Text.Scan
/-!
# Quoting of names

PostgreSQL quotes a name with double quotes. A dump may hold names in backticks, bare table names
in `INSERT INTO` and `REFERENCES`, and names in doubled double quotes.
-/

namespace SqlDump.Rule

open Text

/-- A name in double quotes. -/
def quoted (name : List Char) : List Char := '"' :: (name ++ ['"'])

/-- A non-empty name between two backticks. -/
def backticked : Pattern (List Char) := fun _ s =>
  match s with
  | '\x60' :: rest =>
    let name := rest.takeWhile (· != '\x60')
    if !name.isEmpty && (rest.drop name.length).head? == some '\x60' then
      some ⟨name.length + 2, quoted name⟩
    else none
  | _ => none

/-- Names in backticks change to double quotes. -/
def quoteBackticked (s : List Char) : List Char := replaceAll backticked s

/-- Whether a character may stand in a bare table name: all but a double quote, a blank and an
opening parenthesis. -/
def inBareName (c : Char) : Bool := !(c == '"' || isBlank c || c == '(')

/-- `INSERT INTO` with a bare table name. -/
def insertTarget : Pattern (List Char) := fun _ s =>
  let keyword := "INSERT INTO ".toList
  if keyword.isPrefixOf s then
    let name := (s.drop keyword.length).takeWhile inBareName
    if name.isEmpty then none
    else some ⟨keyword.length + name.length, keyword ++ quoted name⟩
  else none

/-- Quotes the bare table name of every `INSERT INTO`. -/
def quoteInsertTarget (s : List Char) : List Char := replaceAll insertTarget s

/-- `REFERENCES` with a table, which reaches up to the opening parenthesis, and columns, which reach
up to the closing one. -/
def reference : Pattern (List Char) := fun _ s =>
  let keyword := "REFERENCES ".toList
  if keyword.isPrefixOf s then
    let rest := s.drop keyword.length
    let table := rest.takeWhile (· != '(')
    match rest.drop table.length with
    | '(' :: inner =>
      let columns := inner.takeWhile (· != ')')
      if !table.isEmpty && !columns.isEmpty && (inner.drop columns.length).head? == some ')' then
        some ⟨keyword.length + table.length + columns.length + 2,
          keyword ++ quoted table ++ ['('] ++ quoted columns ++ [')']⟩
      else none
    | _ => none
  else none

/-- Quotes the table and the columns of every `REFERENCES`. -/
def quoteReferences (s : List Char) : List Char := replaceAll reference s

/-- A name between two doubled double quotes. -/
def doublyQuoted : Pattern (List Char) := fun _ s =>
  match s with
  | '"' :: '"' :: rest =>
    let name := rest.takeWhile (· != '"')
    if !name.isEmpty && ['"', '"'].isPrefixOf (rest.drop name.length) then
      some ⟨name.length + 4, quoted name⟩
    else none
  | _ => none

/-- Doubled double quotes around a name change to single ones. -/
def collapseDoubledQuotes (s : List Char) : List Char := replaceAll doublyQuoted s

end SqlDump.Rule
