import SqlDump.Text.Blank
import SqlDump.Text.Scan
/-!
# Blank lines

Removed directives leave empty lines behind.
-/

namespace SqlDump.Rule

open Text

/-- A line feed and the blanks behind it up to the last line feed among them. -/
def blankLines : Pattern (List Char) := fun _ s =>
  match s with
  | '\n' :: rest =>
    let blanks := rest.takeWhile isBlank
    let upToLast := (blanks.reverse.dropWhile (· != '\n')).length
    if upToLast == 0 then none else some ⟨upToLast + 1, ['\n', '\n']⟩
  | _ => none

/-- Leaves one empty line of each run of blank lines. -/
def collapseBlankLines (s : List Char) : List Char := replaceAll blankLines s

end SqlDump.Rule
