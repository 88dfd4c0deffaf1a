import SqlDump.Text.Scan
/-!
# Directives

A dump opens with directives such as `PRAGMA foreign_keys=OFF;` that only its own engine knows.
-/

namespace SqlDump.Rule

open Text

/-- A directive: its keyword, at least one character more, and the first semicolon after that. -/
def pragma : Pattern (List Char) := fun _ s =>
  let keyword := "PRAGMA".toList
  if keyword.isPrefixOf s then
    let rest := s.drop keyword.length
    let body := rest.takeWhile (· != ';')
    if !body.isEmpty && (rest.drop body.length).head? == some ';' then
      some ⟨keyword.length + body.length + 1, []⟩
    else none
  else none

/-- Removes every directive, with its semicolon. -/
def stripPragmas (s : List Char) : List Char := replaceAll pragma s

end SqlDump.Rule
