import SqlDump.Rule.Quoting
import SqlDump.Rule.Value
import SqlDump.Text.Newline
import SqlDump.Time.Epoch
/-!
# Conversion of the data alone

Only the lines with `INSERT` statements are kept. Their values are converted by what stands around
them: epoch values become time stamps, `0` and `1` next to a comma or parenthesis become truth
values, and a leading `NULL` becomes `DEFAULT`.
-/

namespace SqlDump.DataOnly

open Rule Text Time

/-- What a kept line starts with, after its blanks. -/
def insertKeyword : List Char := "INSERT INTO".toList

/-- The kept lines of a dump, untrimmed and in order. -/
def insertLines (dump : List Char) : List (List Char) :=
  (splitLines dump).filter fun line => insertKeyword.isPrefixOf (trimStart line)

/-- Counts of a conversion: the kept lines and the epoch values in them. -/
structure Stats where
  insertStatements : Nat
  epochs : EpochCounts
deriving DecidableEq, Repr

/-- A converted text with the counts of its conversion. -/
structure Output where
  content : List Char
  stats : Stats
deriving DecidableEq, Repr

/-- The converted lines, and how many epoch values they held. -/
def body (zone : Zone) (lines : List (List Char)) : List Char × EpochCounts :=
  let (text, counts) := zone.convertEpochs (quoteInsertTarget (joinLines lines))
  (collapseDoubledQuotes (defaultLeadingNull (booleanValues text)), counts)

/-- Sets the session up before the converted lines. -/
def header (generatedAt : Stamp) : List Char :=
  "-- Data import for PostgreSQL (converted from SQLite)\n".toList ++
    "-- Generated on ".toList ++ generatedAt.text ++
    ("\nSET client_encoding = 'UTF8';\n" ++
      "SET standard_conforming_strings = on;\n\n" ++
      "-- Temporarily disable foreign key checks for data import\n" ++
      "SET session_replication_role = replica;\n\n").toList

/-- Brings the session back to its defaults after the converted lines. -/
def footer : List Char :=
  ("\n\n-- Re-enable foreign key checks\n" ++
    "SET session_replication_role = DEFAULT;\n").toList

/-- The converted lines between header and footer. -/
def render (generatedAt : Stamp) (body : List Char) : List Char :=
  header generatedAt ++ body ++ footer

/-- Converts the data of a dump. There is no output without an `INSERT` line. -/
def convert (zone : Zone) (generatedAt : Stamp) (dump : List Char) : Option Output :=
  let lines := insertLines dump
  if lines.isEmpty then none
  else
    let (text, counts) := body zone lines
    some ⟨render generatedAt text, ⟨lines.length, counts⟩⟩

end SqlDump.DataOnly
