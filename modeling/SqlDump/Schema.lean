import SqlDump.Rule.BlankLines
import SqlDump.Rule.Directive
import SqlDump.Rule.Keyword
import SqlDump.Rule.Quoting
import SqlDump.Rule.Value
/-!
# Conversion of a whole dump

Table definitions and `INSERT` statements are converted together, rule by rule over the whole text.
The rules know no grammar: a column that is named like a type is written in capitals too.
-/

namespace SqlDump.Schema

open Rule

/-- The settings that stand before the converted dump. -/
def preamble : List Char :=
  ("-- Converted from SQLite to PostgreSQL\n" ++
    "SET client_encoding = 'UTF8';\n" ++
    "SET standard_conforming_strings = on;\n\n").toList

/-- The converted dump without its preamble: every rule in turn. -/
def body (dump : List Char) : List Char :=
  [stripPragmas, quoteBackticked, upcaseTypes, serialKeys, plainDefaultTime, upcaseBooleans,
    quoteInsertTarget, defaultLeadingNull, quoteReferences, collapseBlankLines].foldl
    (fun s rule => rule s) dump

/-- Converts a whole dump. -/
def convert (dump : List Char) : List Char := preamble ++ body dump

end SqlDump.Schema
