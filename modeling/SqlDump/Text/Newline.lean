import SqlDump.Text.Scan
/-!
# Line ends

A line may end with a line feed, with a carriage return, or with both in the order CR LF.
`normalizeNewlines` leaves line feeds only, in two passes, and `unifyNewlines` says in one scan what
comes out. `splitLines` and `joinLines` go between a text and its lines.
-/

namespace SqlDump.Text

/-- Every line end as a line feed: first each CR LF, then each lone CR. -/
def normalizeNewlines (s : List Char) : List Char :=
  replaceAll (literal ['\r'] ['\n']) (replaceAll (literal ['\r', '\n'] ['\n']) s)

/-- Reads each of CR LF, CR and LF as one line feed. -/
def unifyNewlines : List Char → List Char
  | [] => []
  | '\r' :: '\n' :: rest => '\n' :: unifyNewlines rest
  | c :: rest => (if c = '\r' then '\n' else c) :: unifyNewlines rest

/-- The lines of a text, cut at each line feed. A text without one is a single line. -/
def splitLines (s : List Char) : List (List Char) :=
  s.foldr
    (fun c lines =>
      if c = '\n' then [] :: lines
      else match lines with
        | [] => [[c]]
        | line :: more => (c :: line) :: more)
    [[]]

/-- Lines joined by line feeds. -/
def joinLines (lines : List (List Char)) : List Char := ['\n'].intercalate lines

end SqlDump.Text
