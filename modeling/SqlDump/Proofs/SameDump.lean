import SqlDump.Proofs.Run
import SqlDump.Proofs.Storage.Shape
/-!
# Runs that read the same dump

What a run does hangs on the dump that it reads, on its output path, and on where files and directories stand. Two
runs for which these agree come to the same result and do the same to their storages (`Alike`). What they return
and write when they succeed is the same in any two storages (`SameRuns`).
-/

namespace SqlDump

open Storage

/-- Two runs, from `s` and from `s'`, came to the same result and did the same to their storages. -/
structure Alike {α : Type} (s s' : Storage) (run run' : Except Dump.Failure α × Storage) : Prop where
  result : run'.1 = run.1
  change : SameChange s s' run.2 run'.2

variable {s s' : Storage}

/-! ## Writing an output -/

namespace Dump

theorem alike_writeFile (h : SameShape s s') (path : Path) (content : ByteArray) :
    Alike s s' (writeFile s path content) (writeFile s' path content) := by
  unfold writeFile
  have hwritten := h.writeFile path content
  generalize s.writeFile path content = written at hwritten ⊢
  generalize s'.writeFile path content = written' at hwritten ⊢
  cases hwritten with
  | error fault => exact ⟨rfl, .refl h⟩
  | ok hchange => exact ⟨rfl, hchange⟩

theorem alike_write (h : SameShape s s') (path : Path) (text : List Char) :
    Alike s s' (write s path text) (write s' path text) := by
  rw [write_eq, write_eq]
  cases path.parent? with
  | none => exact alike_writeFile h path _
  | some parent =>
    obtain ⟨hresult, hchange⟩ := h.makeDirectories parent
    rcases hmade : s.makeDirectories parent with ⟨result, t⟩
    rcases hmade' : s'.makeDirectories parent with ⟨result', t'⟩
    rw [hmade, hmade'] at hresult hchange
    dsimp only at hresult hchange ⊢
    rw [hmade, hmade']
    subst hresult
    cases result' with
    | error fault => exact ⟨rfl, hchange⟩
    | ok done =>
      obtain ⟨hresult, hchange'⟩ := alike_writeFile hchange.shape path (encodeText text)
      exact ⟨hresult, hchange.trans hchange'⟩

end Dump

/-! ## Runs -/

namespace Job

variable {job job' : Job} {dump : List Char}

theorem alike_finish (h : SameShape s s') (houtput : job'.output = job.output) (hdry : job'.dryRun = job.dryRun)
    (text : List Char) : Alike s s' (job.finish s text) (job'.finish s' text) := by
  cases hreal : job.dryRun with
  | true =>
    rw [finish_of_dryRun hreal, finish_of_dryRun (hdry.trans hreal)]
    exact ⟨rfl, .refl h⟩
  | false =>
    rw [finish_of_real hreal, finish_of_real (hdry.trans hreal), houtput]
    exact Dump.alike_write h job.output text

/-- The two jobs read the same dump, the one from `s`, the other from `s'`, and go on alike with it. -/
structure SameDump (job job' : Job) (s s' : Storage) (dump : List Char) : Prop where
  read : Dump.read s job.input = .ok dump
  read' : Dump.read s' job'.input = .ok dump
  output : job'.output = job.output
  dryRun : job'.dryRun = job.dryRun

theorem SameDump.alike_runSchema (h : SameDump job job' s s' dump) (hshape : SameShape s s') :
    Alike s s' (job.runSchema s) (job'.runSchema s') := by
  rw [runSchema_of_read h.read, runSchema_of_read h.read']
  obtain ⟨hresult, hchange⟩ := alike_finish hshape h.output h.dryRun (Schema.convert dump)
  exact ⟨congrArg (Except.map _) hresult, hchange⟩

theorem SameDump.alike_runDataOnly (h : SameDump job job' s s' dump) (hshape : SameShape s s') (zone : Time.Zone)
    (now : Time.Stamp) : Alike s s' (job.runDataOnly zone now s) (job'.runDataOnly zone now s') := by
  cases hconvert : DataOnly.convert zone now dump with
  | none =>
    rw [runDataOnly_of_none h.read hconvert, runDataOnly_of_none h.read' hconvert]
    exact ⟨rfl, .refl hshape⟩
  | some converted =>
    rw [runDataOnly_of_some h.read hconvert, runDataOnly_of_some h.read' hconvert]
    obtain ⟨hresult, hchange⟩ := alike_finish hshape h.output h.dryRun converted.content
    exact ⟨congrArg (Except.map _) hresult, hchange⟩

/-! ## Runs that succeed -/

theorem stats_of_finish {α : Type} {a b : α} {text : List Char}
    (hok : (job.finish s text).1.map (fun _ => a) = .ok b) : b = a := by
  obtain ⟨-, -, rfl⟩ := map_eq_ok.1 hok
  rfl

/-- Both outputs were written, with the same content. -/
def BothWrote (s t s' t' : Storage) (output : Path) : Prop :=
  ∃ place place' bytes, Dump.Wrote s t output place bytes ∧ Dump.Wrote s' t' output place' bytes

theorem SameDump.finish_ok (h : SameDump job job' s s' dump) {α : Type} {a b b' : α} {text : List Char}
    (hok : (job.finish s text).1.map (fun _ => a) = .ok b)
    (hok' : (job'.finish s' text).1.map (fun _ => a) = .ok b') :
    b' = b ∧ (job.dryRun = false → BothWrote s (job.finish s text).2 s' (job'.finish s' text).2 job.output) := by
  refine ⟨(stats_of_finish hok').trans (stats_of_finish hok).symm, fun hreal => ?_⟩
  obtain ⟨-, place, hwrote⟩ := wrote_finish hreal hok
  obtain ⟨-, place', hwrote'⟩ := wrote_finish (h.dryRun.trans hreal) hok'
  exact ⟨place, place', _, hwrote, h.output ▸ hwrote'⟩

theorem SameDump.runSchema_ok (h : SameDump job job' s s' dump) {stats stats' : SchemaStats}
    (hok : (job.runSchema s).1 = .ok stats) (hok' : (job'.runSchema s').1 = .ok stats') : stats' = stats ∧
      (job.dryRun = false → BothWrote s (job.runSchema s).2 s' (job'.runSchema s').2 job.output) := by
  rw [runSchema_of_read h.read] at hok ⊢
  rw [runSchema_of_read h.read'] at hok' ⊢
  exact h.finish_ok hok hok'

/-- A run without an `INSERT` line succeeds too, but writes nothing. -/
theorem SameDump.runDataOnly_ok (h : SameDump job job' s s' dump) (zone : Time.Zone) (now : Time.Stamp)
    {stats stats' : Option DataOnly.Stats} (hok : (job.runDataOnly zone now s).1 = .ok stats)
    (hok' : (job'.runDataOnly zone now s').1 = .ok stats') : stats' = stats ∧ (job.dryRun = false → stats ≠ none →
      BothWrote s (job.runDataOnly zone now s).2 s' (job'.runDataOnly zone now s').2 job.output) := by
  cases hconvert : DataOnly.convert zone now dump with
  | none =>
    rw [runDataOnly_of_none h.read hconvert] at hok
    rw [runDataOnly_of_none h.read' hconvert] at hok'
    cases hok
    cases hok'
    exact ⟨rfl, fun _ hsome => absurd rfl hsome⟩
  | some converted =>
    rw [runDataOnly_of_some h.read hconvert] at hok ⊢
    rw [runDataOnly_of_some h.read' hconvert] at hok' ⊢
    obtain ⟨hstats, hwrote⟩ := h.finish_ok hok hok'
    exact ⟨hstats, fun hreal _ => hwrote hreal⟩

/-- What the runs of two jobs, the one from `s`, the other from `s'`, come to if they read the same dump. -/
structure SameRuns (job job' : Job) (s s' : Storage) : Prop where
  schema_alike : SameShape s s' → Alike s s' (job.runSchema s) (job'.runSchema s')
  dataOnly_alike : ∀ zone now, SameShape s s' →
    Alike s s' (job.runDataOnly zone now s) (job'.runDataOnly zone now s')
  schema_ok : ∀ {stats stats'}, (job.runSchema s).1 = .ok stats → (job'.runSchema s').1 = .ok stats' →
    stats' = stats ∧ (job.dryRun = false → BothWrote s (job.runSchema s).2 s' (job'.runSchema s').2 job.output)
  dataOnly_ok : ∀ zone now {stats stats'}, (job.runDataOnly zone now s).1 = .ok stats →
    (job'.runDataOnly zone now s').1 = .ok stats' → stats' = stats ∧ (job.dryRun = false → stats ≠ none →
      BothWrote s (job.runDataOnly zone now s).2 s' (job'.runDataOnly zone now s').2 job.output)

theorem SameDump.sameRuns (h : SameDump job job' s s' dump) : SameRuns job job' s s' where
  schema_alike := h.alike_runSchema
  dataOnly_alike zone now hshape := h.alike_runDataOnly hshape zone now
  schema_ok := h.runSchema_ok
  dataOnly_ok zone now := h.runDataOnly_ok zone now

end Job

end SqlDump
