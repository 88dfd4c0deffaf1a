import SqlDump.Text.Lossy
/-!
# Paths

A path is a sequence of bytes that slashes cut into components. Slashes at the end and components
`.` add nothing, except for a `.` in front.
-/

namespace SqlDump.Storage

/-- The name of a file or a directory. -/
abbrev Name := List UInt8

/-- A path to a file or a directory. -/
structure Path where
  bytes : List UInt8
deriving DecidableEq, Repr

def slash : UInt8 := 0x2F
def dot : UInt8 := 0x2E

/-- The path that a text spells. -/
def Path.ofString (s : String) : Path := ⟨s.toUTF8.data.toList⟩

/-- The text of a path, to be shown. -/
def Path.display (p : Path) : String := String.ofList (Text.lossy p.bytes)

/-- The parts of some bytes between slashes. -/
def splitAtSlashes (bytes : List UInt8) : List Name :=
  bytes.foldr
    (fun byte parts =>
      if byte = slash then [] :: parts
      else match parts with
        | [] => [[byte]]
        | part :: more => (byte :: part) :: more)
    [[]]

/-- Whether a path starts at the root. -/
def Path.isAbsolute (p : Path) : Bool := p.bytes.head? == some slash

/-- One step along a path: to stay, to go up, or to go down to a name. -/
inductive Step where
  | stay
  | up
  | down (name : Name)
deriving DecidableEq, Repr

/-- The step of a component. -/
def Step.ofComponent (name : Name) : Step :=
  if name = [dot] then .stay else if name = [dot, dot] then .up else .down name

/-- The steps of a path. -/
def Path.steps (p : Path) : List Step :=
  ((splitAtSlashes p.bytes).filter fun part => !part.isEmpty).map Step.ofComponent

/-- Whether a path ends with a slash. -/
def Path.endsWithSlash (p : Path) : Bool := p.bytes.getLast? == some slash

/-- The last component of a path, if it is a name. -/
def Path.fileName? (p : Path) : Option Name :=
  match (p.steps.filter (· != .stay)).getLast? with
  | some (.down name) => some name
  | _ => none

/-- What follows the last dot of a name. A dot in front does not count. -/
def extensionOf? (name : Name) : Option Name :=
  let behind := (name.reverse.takeWhile (· != dot)).reverse
  if behind.length + 1 < name.length then some behind else none

/-- The extension of the last component. -/
def Path.extension? (p : Path) : Option Name := p.fileName?.bind extensionOf?

/-- Drops slashes and components `.` at the end of a path, given from its end. One byte stays: the
slash of the root, or a `.` in front. -/
def trimEndReversed : List UInt8 → List UInt8
  | [] => []
  | [byte] => [byte]
  | byte :: next :: rest =>
    if byte = slash then trimEndReversed (next :: rest)
    else if byte = dot ∧ next = slash then trimEndReversed (next :: rest)
    else byte :: next :: rest

/-- The path without its last component. The root and the empty path have none to take away. -/
def Path.parent? (p : Path) : Option Path :=
  match trimEndReversed p.bytes.reverse with
  | [] => none
  | trimmed =>
    if trimmed = [slash] then none
    else some ⟨(trimEndReversed (trimmed.dropWhile (· != slash))).reverse⟩

end SqlDump.Storage
