import Mathlib.Logic.Basic
import SqlDump.Dump
/-!
# Plans on a storage

A plan that goes on with the result of another one takes its steps when those of the first have succeeded
(`onStorage_bind`). So reading and writing on a storage are what their plans say, step by step (`read_eq`,
`write_eq`).
-/

namespace SqlDump.Dump

open Storage

variable {α β : Type}

namespace Plan

theorem onStorage_bind (p : Plan α) (f : α → Plan β) (s : Storage) : (p >>= f).onStorage s =
    match p.onStorage s with
    | (.ok a, s) => (f a).onStorage s
    | (.error failure, s) => (.error failure, s) := by
  show (p.bind f).onStorage s = _
  induction p generalizing s with
  | done result => cases result <;> rfl
  | readFile path next ih =>
    rw [Plan.bind, Plan.onStorage, Plan.onStorage]
    cases Dump.readFile s path with
    | ok content => exact ih content s
    | error failure => rfl
  | makeDirectories path next ih =>
    rw [Plan.bind, Plan.onStorage, Plan.onStorage]
    rcases Dump.makeDirectories s path with ⟨failure | made, s'⟩
    · rfl
    · exact ih s'
  | writeFile path content next ih =>
    rw [Plan.bind, Plan.onStorage, Plan.onStorage]
    rcases Dump.writeFile s path content with ⟨failure | written, s'⟩
    · rfl
    · exact ih s'

theorem onStorage_bind_pure (p : Plan α) (f : α → β) (s : Storage) :
    (p >>= fun a => pure (f a)).onStorage s = ((p.onStorage s).1.map f, (p.onStorage s).2) := by
  rw [onStorage_bind]
  rcases p.onStorage s with ⟨failure | a, s'⟩ <;> rfl

end Plan

variable (s : Storage) (path : Path) (text : List Char)

/-- Reading leaves the storage as it is. -/
theorem onStorage_readPlan : (readPlan path).onStorage s = (read s path, s) := by
  unfold read readPlan
  rw [Plan.onStorage]
  cases readFile s path <;> rfl

theorem read_eq : read s path = readFile s path >>= fun content =>
    (textOf (.ofPath path) content).mapError fun cause => ⟨.reading, path, cause⟩ := by
  unfold read readPlan
  rw [Plan.onStorage]
  cases readFile s path <;> rfl

/-- A plan that only writes a file. -/
theorem onStorage_writeFile (content : ByteArray) :
    (Plan.writeFile path content (pure ())).onStorage s = writeFile s path content := by
  rw [Plan.onStorage]
  rcases writeFile s path content with ⟨failure | written, s'⟩ <;> rfl

theorem makeDirectories_of_isEmpty {parent : Path} (h : parent.bytes.isEmpty = true) :
    s.makeDirectories parent = (.ok (), s) :=
  if_pos h

/-- The directory is made first, and there is nothing to do for it if its path is empty. -/
theorem write_eq : write s path text =
    match path.parent? with
    | none => writeFile s path (encodeText text)
    | some parent =>
      match s.makeDirectories parent with
      | (.ok (), s) => writeFile s path (encodeText text)
      | (.error fault, s) => (.error ⟨.creating, parent, .storage fault⟩, s) := by
  unfold write writePlan
  cases path.parent? with
  | none => exact onStorage_writeFile s path _
  | some parent =>
    dsimp only
    by_cases hempty : parent.bytes.isEmpty = true
    · rw [if_pos hempty, makeDirectories_of_isEmpty s hempty, onStorage_writeFile]
    · rw [if_neg hempty, Plan.onStorage]
      unfold makeDirectories
      rcases s.makeDirectories parent with ⟨fault | made, s'⟩
      · rfl
      · exact onStorage_writeFile s' path _

end SqlDump.Dump
