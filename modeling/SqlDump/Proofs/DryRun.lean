import SqlDump.Proofs.DataOnly.Lines
import SqlDump.Proofs.Run
/-!
# Runs without an output

A run writes last, so that a dry run, a dump that cannot be read and a dump without data leave the storage as it
was. A real run that fails after that may have made directories on the way to its output, and nothing else
(`grown_write_error`). Until it writes, a real run does what the dry run does, whose result therefore foretells
its own.
-/

namespace SqlDump

open Storage

/-- A dry run and a real run from the storage `s`. The dry run leaves it as it is, and so does the real one if the
dump cannot be read. If the real run fails later, it has added directories on the way to its output at most. The dry
run fails as reading the dump does, and foretells what the real run returns. -/
structure Spares {α : Type} (s : Storage) (input output : Path) (dry real : Except Dump.Failure α × Storage) :
    Prop where
  dry_unchanged : dry.2 = s
  unread : ∀ {failure}, Dump.read s input = .error failure → dry = (.error failure, s) ∧ real = (.error failure, s)
  failed : ∀ {failure}, real.1 = .error failure → Grown s real.2 output
  dry_error_iff : ∀ {failure}, dry.1 = .error failure ↔ Dump.read s input = .error failure
  foretold : ∀ {a}, real.1 = .ok a → dry.1 = .ok a

namespace Spares

variable {α : Type} {s : Storage} {input output : Path} {dump : List Char}

theorem of_error {failure : Dump.Failure} (hread : Dump.read s input = .error failure) :
    Spares (α := α) s input output (.error failure, s) (.error failure, s) where
  dry_unchanged := rfl
  unread h := by
    rw [hread] at h
    cases h
    exact ⟨rfl, rfl⟩
  failed _ := .refl s output
  dry_error_iff := by
    rw [hread]
    exact ⟨fun h => (by cases h; rfl), fun h => (by cases h; rfl)⟩
  foretold h := by cases h

/-- Without an output there is nothing to write. -/
theorem of_none (hread : Dump.read s input = .ok dump) (a : α) :
    Spares s input output (.ok a, s) (.ok a, s) where
  dry_unchanged := rfl
  unread h := by
    rw [hread] at h
    cases h
  failed h := by cases h
  dry_error_iff := by
    rw [hread]
    exact ⟨fun h => (by cases h), fun h => (by cases h)⟩
  foretold h := h

/-- Runs that end by writing their texts return the same in both ways, unless the writing fails. -/
theorem of_finish (hread : Dump.read s input = .ok dump) (a : α) (text text' : List Char) :
    Spares s input output
      (((Job.finish ⟨input, output, true⟩ s text).1.map fun _ => a), (Job.finish ⟨input, output, true⟩ s text).2)
      (((Job.finish ⟨input, output, false⟩ s text').1.map fun _ => a),
        (Job.finish ⟨input, output, false⟩ s text').2) := by
  rw [Job.finish_of_dryRun rfl, Job.finish_of_real rfl]
  refine ⟨rfl, ?_, ?_, ?_, ?_⟩
  · intro failure h
    rw [hread] at h
    cases h
  · intro failure h
    rcases hwrite : Dump.write s output text' with ⟨result, s'⟩
    rw [hwrite] at h
    cases result with
    | error failure' => exact Dump.grown_write_error hwrite
    | ok done => cases h
  · intro failure
    rw [hread]
    exact ⟨fun h => (by cases h), fun h => (by cases h)⟩
  · intro b h
    obtain ⟨done, -, rfl⟩ := map_eq_ok.1 h
    rfl

end Spares

/-- Runs that write no output leave all files as they were, and a dry run tells what the real run would return.
The clock may show another time at the real run. -/
theorem runs_spare_files (s : Storage) (input output : Path) :
    Spares s input output (Job.runSchema ⟨input, output, true⟩ s) (Job.runSchema ⟨input, output, false⟩ s) ∧
    ∀ (zone : Time.Zone) (now now' : Time.Stamp),
      Spares s input output (Job.runDataOnly ⟨input, output, true⟩ zone now s)
        (Job.runDataOnly ⟨input, output, false⟩ zone now' s) ∧
      ∀ dump, Dump.read s input = .ok dump → DataOnly.insertLines dump = [] →
        ∀ dryRun, Job.runDataOnly ⟨input, output, dryRun⟩ zone now s = (.ok none, s) := by
  have hnone : ∀ zone now dump, Dump.read s input = .ok dump → DataOnly.insertLines dump = [] →
      ∀ dryRun, Job.runDataOnly ⟨input, output, dryRun⟩ zone now s = (.ok none, s) :=
    fun zone now dump hread hlines dryRun =>
      Job.runDataOnly_of_none hread (DataOnly.convert_of_nil zone now hlines)
  refine ⟨?_, fun zone now now' => ⟨?_, hnone zone now⟩⟩
  · cases hread : Dump.read s input with
    | error failure =>
      rw [Job.runSchema_of_error hread, Job.runSchema_of_error hread]
      exact .of_error hread
    | ok dump =>
      rw [Job.runSchema_of_read hread, Job.runSchema_of_read hread]
      exact .of_finish hread _ _ _
  · cases hread : Dump.read s input with
    | error failure =>
      rw [Job.runDataOnly_of_error hread, Job.runDataOnly_of_error hread]
      exact .of_error hread
    | ok dump =>
      by_cases hlines : DataOnly.insertLines dump = []
      · rw [hnone zone now dump hread hlines, hnone zone now' dump hread hlines]
        exact .of_none hread none
      · -- the counts do not hang on the clock
        rw [Job.runDataOnly_of_some hread (DataOnly.convert_of_ne_nil zone now hlines),
          Job.runDataOnly_of_some hread (DataOnly.convert_of_ne_nil zone now' hlines)]
        exact .of_finish hread _ _ _

/-- The file `f` is in the way of the output `n/../f/x`, and the run fails when it has made the directory `n`. -/
theorem runs_spare_files_blocked :
    let s := fresh.put [[0x68], [0x64], [0x66]] (.file ⟨#[0x62]⟩) rfl
    let output : Path := ⟨[0x6E, 0x2F, 0x2E, 0x2E, 0x2F, 0x66, 0x2F, 0x78]⟩
    let parent : Path := ⟨[0x6E, 0x2F, 0x2E, 0x2E, 0x2F, 0x66]⟩
    let real := Job.runSchema ⟨⟨[0x66]⟩, output, false⟩ s
    real.1 = .error ⟨.creating, parent, .storage .alreadyExists⟩ ∧
      s.root.isDirectoryAt [[0x68], [0x64], [0x6E]] = false ∧
      real.2.root.isDirectoryAt [[0x68], [0x64], [0x6E]] = true ∧ Grown s real.2 output := by
  intro s output parent real
  have hfailed : real.1 = .error ⟨.creating, parent, .storage .alreadyExists⟩ := by decide +kernel
  exact ⟨hfailed, rfl, by decide +kernel, (runs_spare_files s ⟨[0x66]⟩ output).1.failed hfailed⟩

end SqlDump
