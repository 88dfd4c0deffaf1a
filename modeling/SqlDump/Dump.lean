import SqlDump.Dump.Plan
import SqlDump.Text.Newline
/-!
# Dump files

A dump is read as a whole: it is decompressed as its file name says, it must be UTF-8, and its line
ends become line feeds. An output is written as a whole, and the directory that it belongs to is
made first.
-/

namespace SqlDump.Dump

/-- A text as UTF-8. -/
def encodeText (s : List Char) : ByteArray := (String.ofList s).toUTF8

/-- The text of bytes that are UTF-8. -/
def decodeText? (bytes : ByteArray) : Option (List Char) := (String.fromUTF8? bytes).map String.toList

/-- The text in the content of a file. -/
def textOf (compression : Compression) (content : ByteArray) : Except Cause (List Char) := do
  let bytes ← (compression.decode content).mapError .compression
  match decodeText? bytes with
  | some s => return Text.normalizeNewlines s
  | none => throw .notUtf8

/-- How the dump at a path is read. -/
def readPlan (path : Storage.Path) : Plan (List Char) :=
  .readFile path fun content =>
    .done ((textOf (.ofPath path) content).mapError fun cause => ⟨.reading, path, cause⟩)

/-- How an output is written to a path. The directory that it belongs to is made first, if its path is
not empty. -/
def writePlan (path : Storage.Path) (text : List Char) : Plan Unit :=
  let file := .writeFile path (encodeText text) (pure ())
  match path.parent? with
  | none => file
  | some parent => if parent.bytes.isEmpty then file else .makeDirectories parent file

/-- Reads the dump at a path. -/
def read (s : Storage) (path : Storage.Path) : Except Failure (List Char) := ((readPlan path).onStorage s).1

/-- Writes an output to a path. -/
def write (s : Storage) (path : Storage.Path) (text : List Char) : Except Failure Unit × Storage :=
  (writePlan path text).onStorage s

end SqlDump.Dump
