import SqlDump.Compression
import SqlDump.Storage
/-!
# Plans

What is done with files is laid down step by step in a plan, whoever takes the steps. They are taken on a storage
(`Plan.onStorage`), or on the files of a machine. A step that fails ends the plan.
-/

namespace SqlDump.Dump

/-! ## Failures -/

/-- What was being done to a file when it failed. -/
inductive Stage where
  | opening
  | reading
  | creating
  | writing
deriving DecidableEq, Repr

/-- Why it failed. -/
inductive Cause where
  | storage (fault : Storage.Fault)
  | compression (error : Compression.Error)
  | notUtf8
deriving DecidableEq, Repr

/-- A failure names the file or directory. -/
structure Failure where
  stage : Stage
  path : Storage.Path
  cause : Cause
deriving DecidableEq, Repr

/-- How a message about a stage begins. -/
def Stage.message : Stage → String
  | .opening => "failed to open "
  | .reading => "failed to read "
  | .creating => "failed to create "
  | .writing => "failed to write "

/-- The text of a cause. -/
def Cause.message : Cause → String
  | .storage fault => fault.message
  | .compression error => error.message
  | .notUtf8 => "stream did not contain valid UTF-8"

/-- The text of a failure. -/
def Failure.message (f : Failure) : String :=
  f.stage.message ++ f.path.display ++ ": " ++ f.cause.message

/-! ## Steps on a storage -/

/-- Opens a file and reads it to its end. -/
def readFile (s : Storage) (path : Storage.Path) : Except Failure ByteArray := do
  let node ← (s.lookup path).mapError fun fault => ⟨.opening, path, .storage fault⟩
  (Storage.content node).mapError fun fault => ⟨.reading, path, .storage fault⟩

/-- Makes a directory with the parents that are missing. -/
def makeDirectories (s : Storage) (path : Storage.Path) : Except Failure Unit × Storage :=
  let (result, s) := s.makeDirectories path
  (result.mapError fun fault => ⟨.creating, path, .storage fault⟩, s)

/-- Writes a file, whose directory must be there. -/
def writeFile (s : Storage) (path : Storage.Path) (content : ByteArray) : Except Failure Unit × Storage :=
  match s.writeFile path content with
  | .ok s => (.ok (), s)
  | .error fault => (.error ⟨.writing, path, .storage fault⟩, s)

/-! ## Plans -/

/-- What is to be done with files, until there is a result or a failure. -/
inductive Plan (α : Type) where
  | done (result : Except Failure α)
  | readFile (path : Storage.Path) (next : ByteArray → Plan α)
  | makeDirectories (path : Storage.Path) (next : Plan α)
  | writeFile (path : Storage.Path) (content : ByteArray) (next : Plan α)

namespace Plan

variable {α β : Type}

/-- Goes on with the result of a plan. -/
def bind (p : Plan α) (f : α → Plan β) : Plan β :=
  match p with
  | done (.ok a) => f a
  | done (.error failure) => done (.error failure)
  | readFile path next => readFile path fun content => (next content).bind f
  | makeDirectories path next => makeDirectories path (next.bind f)
  | writeFile path content next => writeFile path content (next.bind f)

instance : Monad Plan where
  pure a := done (.ok a)
  bind := bind

/-- Takes the steps of a plan on a storage. -/
def onStorage : Plan α → Storage → Except Failure α × Storage
  | done result, s => (result, s)
  | readFile path next, s =>
    match Dump.readFile s path with
    | .ok content => (next content).onStorage s
    | .error failure => (.error failure, s)
  | makeDirectories path next, s =>
    match Dump.makeDirectories s path with
    | (.ok (), s) => next.onStorage s
    | (.error failure, s) => (.error failure, s)
  | writeFile path content next, s =>
    match Dump.writeFile s path content with
    | (.ok (), s) => next.onStorage s
    | (.error failure, s) => (.error failure, s)

end Plan

end SqlDump.Dump
