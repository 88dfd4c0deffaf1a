import SqlDump.Storage.Tree
/-!
# Storage

A storage is a tree of files and directories with a current directory, from which relative paths
start. Its operations follow the steps of a path: every step must start at a directory. A failed
operation changes nothing, except that the parents that `makeDirectories` has made stay.
-/

namespace SqlDump

open Storage in
/-- Files and directories, and the directory that relative paths start from. -/
structure Storage where
  root : Node
  current : Place
  current_isDirectory : root.isDirectoryAt current = true

namespace Storage

/-- Why an operation on a storage fails. -/
inductive Fault where
  | notFound
  | alreadyExists
  | notADirectory
  | isADirectory
  | nulInPath
deriving DecidableEq, Repr

/-- The text of a fault. -/
def Fault.message : Fault → String
  | .notFound => "No such file or directory (os error 2)"
  | .alreadyExists => "File exists (os error 17)"
  | .notADirectory => "Not a directory (os error 20)"
  | .isADirectory => "Is a directory (os error 21)"
  | .nulInPath => "file name contained an unexpected NUL byte"

/-- A storage whose current directory is empty. It stands below two other directories. -/
def fresh : Storage where
  root := .directory [([0x68], .directory [([0x64], .directory [])])]
  current := [[0x68], [0x64]]
  current_isDirectory := rfl

/-! ## Following a path -/

/-- Follows steps from a place. Each step must start at a directory. Whether anything stands at the
place that the last step leads to is left open. -/
def walk (root : Node) : Place → List Step → Except Fault Place
  | place, [] => .ok place
  | place, step :: steps =>
    match root.find? place with
    | none => .error .notFound
    | some (.file _) => .error .notADirectory
    | some (.directory _) =>
      match step with
      | .stay => walk root place steps
      | .up => walk root place.dropLast steps
      | .down name => walk root (place ++ [name]) steps

/-- Where a path starts. -/
def start (s : Storage) (p : Path) : Place := if p.isAbsolute then [] else s.current

/-- A path that can be followed is not empty and holds no zero byte. -/
def checkPath (p : Path) : Except Fault Unit :=
  if 0 ∈ p.bytes then .error .nulInPath
  else if p.bytes.isEmpty then .error .notFound
  else .ok ()

/-- The node that a path leads to. With a slash at its end it must be a directory. -/
def lookup (s : Storage) (p : Path) : Except Fault Node := do
  checkPath p
  let place ← walk s.root (s.start p) (p.steps ++ if p.endsWithSlash then [.stay] else [])
  match s.root.find? place with
  | some node => return node
  | none => throw .notFound

/-- Whether a path leads to a directory. -/
def isDirectory (s : Storage) (p : Path) : Bool :=
  match s.lookup p with
  | .ok (.directory _) => true
  | _ => false

/-- The content of a node, which must be a file. -/
def content : Node → Except Fault ByteArray
  | .file bytes => .ok bytes
  | .directory _ => .error .isADirectory

/-- Where the last component of a path would stand, if it is a name. What is in front of it must be a
directory. -/
def placeOfNew (s : Storage) (p : Path) : Except Fault (Option Place) := do
  checkPath p
  let parent ← walk s.root (s.start p) (p.steps.dropLast ++ [.stay])
  match p.steps.getLast? with
  | some (.down name) => return some (parent ++ [name])
  | _ => return none

/-! ## Changes -/

/-- Puts a node where no directory is. -/
def put (s : Storage) (place : Place) (node : Node) (h : s.root.isDirectoryAt place = false) :
    Storage where
  root := Node.put node place s.root
  current := s.current
  current_isDirectory := Node.isDirectoryAt_put node place s.root s.current s.current_isDirectory h

theorem isDirectoryAt_of_find?_none {root : Node} {place : Place} (h : root.find? place = none) :
    root.isDirectoryAt place = false := by
  simp [Node.isDirectoryAt, h]

/-- Makes a directory. Nothing may stand in its place. -/
def makeDirectory (s : Storage) (p : Path) : Except Fault Storage := do
  match ← s.placeOfNew p with
  | none => throw .alreadyExists
  | some place =>
    match h : s.root.find? place with
    | some _ => throw .alreadyExists
    | none => return s.put place (.directory []) (isDirectoryAt_of_find?_none h)

/-- Writes a file, in place of one that stands there. -/
def writeFile (s : Storage) (p : Path) (bytes : ByteArray) : Except Fault Storage := do
  match ← s.placeOfNew p with
  | none => throw .isADirectory
  | some place =>
    if p.endsWithSlash then throw .isADirectory
    else if h : s.root.isDirectoryAt place = true then throw .isADirectory
    else return s.put place (.file bytes) (Bool.eq_false_iff.2 h)

/-- What is left of a failure to make a directory: none, if there is a directory. -/
def unlessDirectory (s : Storage) (p : Path) (fault : Fault) : Except Fault Unit :=
  if s.isDirectory p then .ok () else .error fault

/-- Makes a directory with the parents that are missing, of which there are at most `depth`. -/
def makeDirectoriesWithin : (depth : Nat) → Storage → Path → Except Fault Unit × Storage
  | 0, s, _ => (.error .notFound, s)
  | depth + 1, s, p =>
    if p.bytes.isEmpty then (.ok (), s)
    else match s.makeDirectory p with
      | .ok s => (.ok (), s)
      | .error .notFound =>
        match p.parent? with
        | none => (.error .notFound, s)
        | some parent =>
          match makeDirectoriesWithin depth s parent with
          | (.error fault, s) => (.error fault, s)
          | (.ok (), s) =>
            match s.makeDirectory p with
            | .ok s => (.ok (), s)
            | .error fault => (s.unlessDirectory p fault, s)
      | .error fault => (s.unlessDirectory p fault, s)

/-- Makes a directory and its parents, as far as they are missing. Parents that were made stay when a
later step fails. -/
def makeDirectories (s : Storage) (p : Path) : Except Fault Unit × Storage :=
  makeDirectoriesWithin (p.bytes.length + 1) s p

/-- The bytes of a relative path to a place, with a slash behind a directory. -/
def placeBytes (entry : Place × Bool) : List UInt8 :=
  [slash].intercalate entry.1 ++ if entry.2 then [slash] else []

/-- The relative paths of everything below the current directory, in the order of their bytes. -/
def list (s : Storage) : List Path :=
  let below := ((s.root.find? s.current).map Node.places).getD []
  ((below.map placeBytes).mergeSort fun a b => decide (a ≤ b)).map Path.mk

end Storage

end SqlDump
