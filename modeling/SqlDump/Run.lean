import SqlDump.DataOnly
import SqlDump.Dump
import SqlDump.Schema
/-!
# Runs

A run reads a dump, converts it, and writes the result. A dry run stops before it writes. The steps of a
run are a plan, and the runs on a storage take them.
-/

namespace SqlDump

/-- What a run reads and writes. -/
structure Job where
  input : Storage.Path
  output : Storage.Path
  dryRun : Bool
deriving DecidableEq, Repr

/-- The sizes of a dump and of its conversion in bytes. -/
structure SchemaStats where
  inputBytes : Nat
  outputBytes : Nat
deriving DecidableEq, Repr

/-- The sizes of two texts as UTF-8. -/
def SchemaStats.ofTexts (dump converted : List Char) : SchemaStats :=
  ⟨(Dump.encodeText dump).size, (Dump.encodeText converted).size⟩

namespace Job

/-- How a run ends: its text is written, unless it is a dry run. -/
def finishPlan (job : Job) (text : List Char) : Dump.Plan Unit :=
  if job.dryRun then pure () else Dump.writePlan job.output text

/-- How a whole dump is converted. -/
def schemaPlan (job : Job) : Dump.Plan SchemaStats := do
  let dump ← Dump.readPlan job.input
  let converted := Schema.convert dump
  job.finishPlan converted
  return .ofTexts dump converted

/-- How the data of a dump is converted. Without an `INSERT` line there is no result, and nothing is
written. -/
def dataOnlyPlan (job : Job) (zone : Time.Zone) (now : Time.Stamp) : Dump.Plan (Option DataOnly.Stats) := do
  let dump ← Dump.readPlan job.input
  match DataOnly.convert zone now dump with
  | none => return none
  | some converted =>
    job.finishPlan converted.content
    return some converted.stats

/-- Ends a run on a storage. -/
def finish (job : Job) (s : Storage) (text : List Char) : Except Dump.Failure Unit × Storage :=
  (job.finishPlan text).onStorage s

/-- Converts a whole dump on a storage. -/
def runSchema (job : Job) (s : Storage) : Except Dump.Failure SchemaStats × Storage :=
  job.schemaPlan.onStorage s

/-- Converts the data of a dump on a storage. -/
def runDataOnly (job : Job) (zone : Time.Zone) (now : Time.Stamp) (s : Storage) :
    Except Dump.Failure (Option DataOnly.Stats) × Storage :=
  (job.dataOnlyPlan zone now).onStorage s

end Job

end SqlDump
