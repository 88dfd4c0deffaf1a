import SqlDump.Proofs.Plan
import SqlDump.Proofs.Storage.Change
import SqlDump.Run
/-!
# What runs leave behind

A real run that succeeds writes the conversion of what it read, and changes nothing else but for the directories
that the output needs (`Dump.Wrote`). Dry runs and failed runs leave all files as they are. So after any
sequence of runs a file holds what the last run wrote that wrote it, and its first content if none did
(`fileAt_execAll`).
-/

namespace SqlDump

open Storage

/-! ## Writing an output -/

namespace Dump

/-- The bytes were written to a path, which leads to `place`. All that stood elsewhere is still there, and all
that is new elsewhere are directories on the way to the output. -/
structure Wrote (s s' : Storage) (path : Path) (place : Place) (bytes : ByteArray) : Prop where
  leadsTo : s'.LeadsTo path place
  content : s'.lookup path = .ok (.file bytes)
  current : s'.current = s.current
  written : s'.entryAt place = some (.file bytes)
  no_directory : s.entryAt place ≠ some .directory
  kept : ∀ {q e}, q ≠ place → s.entryAt q = some e → s'.entryAt q = some e
  made : ∀ {q}, q ≠ place → s.entryAt q = none → s'.entryAt q = none ∨
    s'.entryAt q = some .directory ∧ ∃ parent, path.parent? = some parent ∧ s'.LeadsOver parent q

variable {s s' s'' : Storage} {path : Path} {text : List Char} {content : ByteArray}

theorem writeFile_eq_ok (h : writeFile s path content = (.ok (), s')) : s.writeFile path content = .ok s' := by
  unfold writeFile at h
  split at h
  next s'' hwritten =>
    cases h
    exact hwritten
  · cases h

theorem writeFile_eq_error {failure : Failure} (h : writeFile s path content = (.error failure, s')) : s' = s := by
  unfold writeFile at h
  split at h
  · cases h
  · cases h
    rfl

theorem wrote_writeFile (h : s.writeFile path content = .ok s') : ∃ place, Wrote s s' path place content := by
  obtain ⟨place, hcurrent, hleads, hlookup, hdirectory, hentry⟩ := writeFile_spec h
  refine ⟨place, hleads, hlookup, hcurrent, by rw [hentry, if_pos rfl], hdirectory, ?_, ?_⟩
  · intro q e hq he
    rw [hentry, if_neg hq, he]
  · intro q hq hnone
    exact .inl (by rw [hentry, if_neg hq, hnone])

/-- Directories made on the way before a file is written. -/
theorem Wrote.of_grown {parent : Path} {place : Place} {bytes : ByteArray} (hparent : path.parent? = some parent)
    (hg : Grown s s' parent) (h : Wrote s' s'' path place bytes) : Wrote s s'' path place bytes where
  leadsTo := h.leadsTo
  content := h.content
  current := h.current.trans hg.current
  written := h.written
  no_directory hd := h.no_directory (hg.kept hd)
  kept hq he := h.kept hq (hg.kept he)
  made {q} hq hnone := by
    have hdirectories : ∀ q, s'.entryAt q = some .directory → s''.entryAt q = some .directory := by
      intro q hd
      refine h.kept ?_ hd
      rintro rfl
      exact h.no_directory hd
    rcases hg.made hnone with hnone | ⟨hd, hover⟩
    · exact h.made hq hnone
    · exact .inr ⟨h.kept hq hd, parent, hparent, hover.mono h.current hdirectories⟩

theorem wrote_write (h : write s path text = (.ok (), s')) : ∃ place, Wrote s s' path place (encodeText text) := by
  rw [write_eq] at h
  split at h
  · exact wrote_writeFile (writeFile_eq_ok h)
  next parent hparent =>
    have hgrown := grown_makeDirectories s parent
    split at h
    next s'' hmade =>
      rw [hmade] at hgrown
      obtain ⟨place, hwrote⟩ := wrote_writeFile (writeFile_eq_ok h)
      exact ⟨place, hwrote.of_grown hparent hgrown⟩
    · cases h

/-- A failure to write leaves directories behind at most, on the way to the output. -/
theorem grown_write_error {failure : Failure} (h : write s path text = (.error failure, s')) : Grown s s' path := by
  rw [write_eq] at h
  split at h
  · rw [writeFile_eq_error h]
    exact .refl s path
  next parent hparent =>
    have hgrown := (grown_makeDirectories s parent).of_parent hparent
    split at h
    next s'' hmade =>
      rw [hmade] at hgrown
      rw [writeFile_eq_error h]
      exact hgrown
    next s'' hmade =>
      cases h
      rw [hmade] at hgrown
      exact hgrown

/-! ## The files -/

end Dump

namespace Storage

/-- The content of the file at a place. -/
def fileAt (s : Storage) (q : Place) : Option ByteArray :=
  match s.entryAt q with
  | some (.file content) => some content
  | _ => none

variable {s s' : Storage}

theorem Grown.fileAt {p : Path} (h : Grown s s' p) (q : Place) : s'.fileAt q = s.fileAt q := by
  unfold Storage.fileAt
  cases hq : s.entryAt q with
  | some e => rw [h.kept hq]
  | none =>
    rcases h.made hq with hnone | ⟨hd, -⟩
    · rw [hnone]
    · rw [hd]

end Storage

namespace Dump

variable {s s' : Storage} {path : Path} {text : List Char}

theorem Wrote.fileAt {place : Place} {bytes : ByteArray} (h : Wrote s s' path place bytes) (q : Place) :
    s'.fileAt q = if q = place then some bytes else s.fileAt q := by
  unfold Storage.fileAt
  by_cases hq : q = place
  · rw [hq, h.written, if_pos rfl]
  · rw [if_neg hq]
    cases he : s.entryAt q with
    | some e => rw [h.kept hq he]
    | none =>
      rcases h.made hq he with hnone | ⟨hd, -⟩
      · rw [hnone]
      · rw [hd]

/-- A failure to write may leave directories behind, but it leaves the files as they are. -/
theorem fileAt_write_error {failure : Failure} (h : write s path text = (.error failure, s')) (q : Place) :
    s'.fileAt q = s.fileAt q :=
  (grown_write_error h).fileAt q

end Dump

/-! ## One run -/

namespace Job

variable {job : Job} {s : Storage} {dump : List Char}

theorem finish_of_dryRun (h : job.dryRun = true) (s : Storage) (text : List Char) :
    job.finish s text = (.ok (), s) := by
  unfold finish finishPlan
  rw [if_pos h]
  rfl

theorem finish_of_real (h : job.dryRun = false) (s : Storage) (text : List Char) :
    job.finish s text = Dump.write s job.output text := by
  unfold finish finishPlan
  rw [h]
  rfl

/-- A run that gets to its end with some text writes it, or leaves the files as they are. -/
theorem finish_cases (job : Job) (s : Storage) (text : List Char) :
    (job.dryRun = false ∧ (job.finish s text).1 = .ok () ∧
      ∃ place, Dump.Wrote s (job.finish s text).2 job.output place (Dump.encodeText text)) ∨
    (job.dryRun = true ∨ ∃ failure, (job.finish s text).1 = .error failure) ∧
      ∀ q, (job.finish s text).2.fileAt q = s.fileAt q := by
  cases hdry : job.dryRun with
  | true =>
    rw [finish_of_dryRun hdry]
    exact .inr ⟨.inl rfl, fun q => rfl⟩
  | false =>
    rw [finish_of_real hdry]
    rcases h : Dump.write s job.output text with ⟨result, s'⟩
    cases result with
    | ok done =>
      cases done
      exact .inl ⟨rfl, rfl, Dump.wrote_write h⟩
    | error failure => exact .inr ⟨.inr ⟨failure, rfl⟩, Dump.fileAt_write_error h⟩

/-- The end of a run writes the file at a place, or leaves it as it is. -/
theorem fileAt_finish (job : Job) (s : Storage) (text : List Char) (q : Place) :
    (job.dryRun = false ∧ (job.finish s text).1 = .ok () ∧ (job.finish s text).2.LeadsTo job.output q) ∧
      (job.finish s text).2.fileAt q = some (Dump.encodeText text) ∨
    ¬ (job.dryRun = false ∧ (job.finish s text).1 = .ok () ∧ (job.finish s text).2.LeadsTo job.output q) ∧
      (job.finish s text).2.fileAt q = s.fileAt q := by
  rcases finish_cases job s text with ⟨hreal, hok, place, hwrote⟩ | ⟨hno, hsame⟩
  · have hfile := hwrote.fileAt q
    by_cases hq : q = place
    · subst hq
      exact .inl ⟨⟨hreal, hok, hwrote.leadsTo⟩, hfile.trans (if_pos rfl)⟩
    · refine .inr ⟨?_, hfile.trans (if_neg hq)⟩
      rintro ⟨-, -, hleads⟩
      exact hq (hleads.unique hwrote.leadsTo)
  · refine .inr ⟨?_, hsame q⟩
    rintro ⟨hreal, hok, -⟩
    rcases hno with hdry | ⟨failure, hfailed⟩
    · rw [hreal] at hdry
      cases hdry
    · rw [hok] at hfailed
      cases hfailed

theorem runSchema_of_read (h : Dump.read s job.input = .ok dump) : job.runSchema s =
    ((job.finish s (Schema.convert dump)).1.map fun _ => .ofTexts dump (Schema.convert dump),
      (job.finish s (Schema.convert dump)).2) := by
  unfold runSchema schemaPlan
  rw [Dump.Plan.onStorage_bind, Dump.onStorage_readPlan, h]
  exact Dump.Plan.onStorage_bind_pure _ _ s

theorem runSchema_of_error {failure : Dump.Failure} (h : Dump.read s job.input = .error failure) :
    job.runSchema s = (.error failure, s) := by
  unfold runSchema schemaPlan
  rw [Dump.Plan.onStorage_bind, Dump.onStorage_readPlan, h]

variable {zone : Time.Zone} {now : Time.Stamp}

theorem runDataOnly_of_some {output : DataOnly.Output} (h : Dump.read s job.input = .ok dump)
    (hconvert : DataOnly.convert zone now dump = some output) : job.runDataOnly zone now s =
      ((job.finish s output.content).1.map fun _ => some output.stats, (job.finish s output.content).2) := by
  unfold runDataOnly dataOnlyPlan
  rw [Dump.Plan.onStorage_bind, Dump.onStorage_readPlan, h]
  dsimp only
  rw [hconvert]
  exact Dump.Plan.onStorage_bind_pure _ _ s

theorem runDataOnly_of_none (h : Dump.read s job.input = .ok dump)
    (hconvert : DataOnly.convert zone now dump = none) : job.runDataOnly zone now s = (.ok none, s) := by
  unfold runDataOnly dataOnlyPlan
  rw [Dump.Plan.onStorage_bind, Dump.onStorage_readPlan, h]
  dsimp only
  rw [hconvert]
  rfl

theorem runDataOnly_of_error {failure : Dump.Failure} (h : Dump.read s job.input = .error failure) :
    job.runDataOnly zone now s = (.error failure, s) := by
  unfold runDataOnly dataOnlyPlan
  rw [Dump.Plan.onStorage_bind, Dump.onStorage_readPlan, h]

/-- A real run that succeeds got through to its end, which wrote the text. -/
theorem wrote_finish {α : Type} {a b : α} {text : List Char} (hreal : job.dryRun = false)
    (hok : ((job.finish s text).1.map fun _ => a) = .ok b) :
    b = a ∧ ∃ place, Dump.Wrote s (job.finish s text).2 job.output place (Dump.encodeText text) := by
  obtain ⟨done, hdone, rfl⟩ := map_eq_ok.1 hok
  refine ⟨rfl, ?_⟩
  rcases finish_cases job s text with ⟨-, -, hwrote⟩ | ⟨hdry | ⟨failure, hfailed⟩, -⟩
  · exact hwrote
  · rw [hreal] at hdry
    cases hdry
  · rw [hdone] at hfailed
    cases hfailed

theorem runSchema_real {stats : SchemaStats} (hreal : job.dryRun = false)
    (hok : (job.runSchema s).1 = .ok stats) : ∃ dump place, Dump.read s job.input = .ok dump ∧
      stats = .ofTexts dump (Schema.convert dump) ∧
      Dump.Wrote s (job.runSchema s).2 job.output place (Dump.encodeText (Schema.convert dump)) := by
  cases hread : Dump.read s job.input with
  | error failure =>
    rw [runSchema_of_error hread] at hok
    cases hok
  | ok dump =>
    rw [runSchema_of_read hread] at hok ⊢
    obtain ⟨hstats, place, hwrote⟩ := wrote_finish hreal hok
    exact ⟨dump, place, rfl, hstats, hwrote⟩

/-- Without an `INSERT` line a run leaves everything as it is. -/
theorem runDataOnly_empty (hok : (job.runDataOnly zone now s).1 = .ok none) : (job.runDataOnly zone now s).2 = s := by
  cases hread : Dump.read s job.input with
  | error failure => rw [runDataOnly_of_error hread]
  | ok dump =>
    cases hconvert : DataOnly.convert zone now dump with
    | none => rw [runDataOnly_of_none hread hconvert]
    | some output =>
      rw [runDataOnly_of_some hread hconvert] at hok
      obtain ⟨_, -, hnone⟩ := map_eq_ok.1 hok
      cases hnone

theorem runDataOnly_real {stats : DataOnly.Stats} (hreal : job.dryRun = false)
    (hok : (job.runDataOnly zone now s).1 = .ok (some stats)) : ∃ dump content place,
      Dump.read s job.input = .ok dump ∧ DataOnly.convert zone now dump = some ⟨content, stats⟩ ∧
      Dump.Wrote s (job.runDataOnly zone now s).2 job.output place (Dump.encodeText content) := by
  cases hread : Dump.read s job.input with
  | error failure =>
    rw [runDataOnly_of_error hread] at hok
    cases hok
  | ok dump =>
    cases hconvert : DataOnly.convert zone now dump with
    | none =>
      rw [runDataOnly_of_none hread hconvert] at hok
      cases hok
    | some output =>
      rw [runDataOnly_of_some hread hconvert] at hok ⊢
      obtain ⟨hstats, place, hwrote⟩ := wrote_finish hreal hok
      cases hstats
      exact ⟨dump, output.content, place, rfl, hconvert, hwrote⟩

end Job

/-- A run of the program: of a whole dump, or of its data alone. -/
inductive Run where
  | schema (job : Job)
  | dataOnly (job : Job) (zone : Time.Zone) (now : Time.Stamp)

namespace Run

/-- What a run leaves behind. -/
def exec (s : Storage) : Run → Storage
  | schema job => (job.runSchema s).2
  | dataOnly job zone now => (job.runDataOnly zone now s).2

/-- A run is a real one and succeeds, its output path leads to a place, and the bytes are the conversion of
what the run reads. -/
inductive Writes (s : Storage) (place : Place) : Run → ByteArray → Prop
  | schema {job : Job} {dump : List Char} {stats : SchemaStats} (hreal : job.dryRun = false)
      (hread : Dump.read s job.input = .ok dump) (hok : (job.runSchema s).1 = .ok stats)
      (hplace : (job.runSchema s).2.LeadsTo job.output place) :
      Writes s place (.schema job) (Dump.encodeText (Schema.convert dump))
  | dataOnly {job : Job} {zone : Time.Zone} {now : Time.Stamp} {dump : List Char} {output : DataOnly.Output}
      {stats : DataOnly.Stats} (hreal : job.dryRun = false) (hread : Dump.read s job.input = .ok dump)
      (hconvert : DataOnly.convert zone now dump = some output)
      (hok : (job.runDataOnly zone now s).1 = .ok (some stats))
      (hplace : (job.runDataOnly zone now s).2.LeadsTo job.output place) :
      Writes s place (.dataOnly job zone now) (Dump.encodeText output.content)

section Writes

variable {s : Storage} {q : Place} {bytes : ByteArray} {job : Job} {dump : List Char}

theorem writes_schema_iff (hread : Dump.read s job.input = .ok dump) :
    (schema job).Writes s q bytes ↔ (job.dryRun = false ∧ (job.finish s (Schema.convert dump)).1 = .ok () ∧
      (job.finish s (Schema.convert dump)).2.LeadsTo job.output q) ∧
        bytes = Dump.encodeText (Schema.convert dump) := by
  have hrun := Job.runSchema_of_read hread
  constructor
  · rintro (⟨hreal, hread', hok, hplace⟩ | _)
    rw [hread] at hread'
    cases hread'
    rw [hrun] at hok hplace
    obtain ⟨⟨⟩, hdone, -⟩ := map_eq_ok.1 hok
    exact ⟨⟨hreal, hdone, hplace⟩, rfl⟩
  · rintro ⟨⟨hreal, hdone, hplace⟩, hbytes⟩
    rw [hbytes]
    have hok : (job.runSchema s).1 = .ok (.ofTexts dump (Schema.convert dump)) := by
      rw [hrun, hdone]
      rfl
    have hleads : (job.runSchema s).2.LeadsTo job.output q := by
      rw [hrun]
      exact hplace
    exact .schema hreal hread hok hleads

theorem writes_dataOnly_iff {zone : Time.Zone} {now : Time.Stamp} {output : DataOnly.Output}
    (hread : Dump.read s job.input = .ok dump) (hconvert : DataOnly.convert zone now dump = some output) :
    (dataOnly job zone now).Writes s q bytes ↔ (job.dryRun = false ∧ (job.finish s output.content).1 = .ok () ∧
      (job.finish s output.content).2.LeadsTo job.output q) ∧ bytes = Dump.encodeText output.content := by
  have hrun := Job.runDataOnly_of_some hread hconvert
  constructor
  · rintro (_ | ⟨hreal, hread', hconvert', hok, hplace⟩)
    rw [hread] at hread'
    cases hread'
    rw [hconvert] at hconvert'
    cases hconvert'
    rw [hrun] at hok hplace
    obtain ⟨⟨⟩, hdone, -⟩ := map_eq_ok.1 hok
    exact ⟨⟨hreal, hdone, hplace⟩, rfl⟩
  · rintro ⟨⟨hreal, hdone, hplace⟩, hbytes⟩
    rw [hbytes]
    have hok : (job.runDataOnly zone now s).1 = .ok (some output.stats) := by
      rw [hrun, hdone]
      rfl
    have hleads : (job.runDataOnly zone now s).2.LeadsTo job.output q := by
      rw [hrun]
      exact hplace
    exact .dataOnly hreal hread hconvert hok hleads

end Writes

/-- A run writes the file at a place, or leaves it as it is. -/
theorem fileAt_exec (r : Run) (s : Storage) (q : Place) :
    (∃ bytes, r.Writes s q bytes ∧ (r.exec s).fileAt q = some bytes) ∨
      (∀ bytes, ¬ r.Writes s q bytes) ∧ (r.exec s).fileAt q = s.fileAt q := by
  cases r with
  | schema job =>
    cases hread : Dump.read s job.input with
    | error failure =>
      refine .inr ⟨?_, by rw [exec, Job.runSchema_of_error hread]⟩
      rintro bytes (⟨-, hread', -, -⟩ | _)
      rw [hread] at hread'
      cases hread'
    | ok dump =>
      rw [exec, Job.runSchema_of_read hread]
      rcases job.fileAt_finish s (Schema.convert dump) q with ⟨hw, hfile⟩ | ⟨hno, hfile⟩
      · exact .inl ⟨_, (writes_schema_iff hread).2 ⟨hw, rfl⟩, hfile⟩
      · exact .inr ⟨fun bytes hw => hno ((writes_schema_iff hread).1 hw).1, hfile⟩
  | dataOnly job zone now =>
    cases hread : Dump.read s job.input with
    | error failure =>
      refine .inr ⟨?_, by rw [exec, Job.runDataOnly_of_error hread]⟩
      rintro bytes (_ | ⟨-, hread', -, -, -⟩)
      rw [hread] at hread'
      cases hread'
    | ok dump =>
      cases hconvert : DataOnly.convert zone now dump with
      | none =>
        refine .inr ⟨?_, by rw [exec, Job.runDataOnly_of_none hread hconvert]⟩
        rintro bytes (_ | ⟨-, hread', hconvert', -, -⟩)
        rw [hread] at hread'
        cases hread'
        rw [hconvert] at hconvert'
        cases hconvert'
      | some output =>
        rw [exec, Job.runDataOnly_of_some hread hconvert]
        rcases job.fileAt_finish s output.content q with ⟨hw, hfile⟩ | ⟨hno, hfile⟩
        · exact .inl ⟨_, (writes_dataOnly_iff hread hconvert).2 ⟨hw, rfl⟩, hfile⟩
        · exact .inr ⟨fun bytes hw => hno ((writes_dataOnly_iff hread hconvert).1 hw).1, hfile⟩

/-! ## Sequences of runs -/

/-- What a sequence of runs leaves behind. -/
def execAll (s : Storage) (runs : List Run) : Storage := runs.foldl exec s

/-- No run of a sequence writes the file at a place. -/
inductive Untouched (q : Place) : Storage → List Run → Prop
  | nil {s} : Untouched q s []
  | cons {s r runs} : (∀ bytes, ¬ r.Writes s q bytes) → Untouched q (r.exec s) runs → Untouched q s (r :: runs)

/-- The last run of a sequence that writes the file at a place writes these bytes. -/
inductive LastWritten (q : Place) (bytes : ByteArray) : Storage → List Run → Prop
  | last {s r runs} : r.Writes s q bytes → Untouched q (r.exec s) runs → LastWritten q bytes s (r :: runs)
  | later {s r runs} : LastWritten q bytes (r.exec s) runs → LastWritten q bytes s (r :: runs)

/-- After a sequence of runs a file holds what was written to it last, or else what it held at first. -/
theorem fileAt_execAll (runs : List Run) (s : Storage) (q : Place) :
    (∃ bytes, LastWritten q bytes s runs ∧ (execAll s runs).fileAt q = some bytes) ∨
      Untouched q s runs ∧ (execAll s runs).fileAt q = s.fileAt q := by
  induction runs generalizing s with
  | nil => exact .inr ⟨.nil, rfl⟩
  | cons r runs ih =>
    rcases ih (r.exec s) with ⟨bytes, hlast, hfile⟩ | ⟨huntouched, hfile⟩
    · exact .inl ⟨bytes, .later hlast, hfile⟩
    · rcases r.fileAt_exec s q with ⟨bytes, hwrites, hexec⟩ | ⟨hno, hexec⟩
      · exact .inl ⟨bytes, .last hwrites huntouched, hfile.trans hexec⟩
      · exact .inr ⟨.cons hno huntouched, hfile.trans hexec⟩

end Run

/-- A real run that succeeds writes the conversion of what it read and nothing else, and so do sequences of
runs. -/
theorem runs_write_conversions (s : Storage) :
    (∀ (job : Job) (stats : SchemaStats), job.dryRun = false → (job.runSchema s).1 = .ok stats →
      ∃ dump place, Dump.read s job.input = .ok dump ∧
        stats.inputBytes = (Dump.encodeText dump).size ∧
        stats.outputBytes = (Dump.encodeText (Schema.convert dump)).size ∧
        Dump.Wrote s (job.runSchema s).2 job.output place (Dump.encodeText (Schema.convert dump))) ∧
    (∀ (job : Job) (zone : Time.Zone) (now : Time.Stamp) (stats : DataOnly.Stats), job.dryRun = false →
      (job.runDataOnly zone now s).1 = .ok (some stats) →
      ∃ dump content place, Dump.read s job.input = .ok dump ∧
        DataOnly.convert zone now dump = some ⟨content, stats⟩ ∧
        Dump.Wrote s (job.runDataOnly zone now s).2 job.output place (Dump.encodeText content)) ∧
    (∀ (job : Job) (zone : Time.Zone) (now : Time.Stamp), (job.runDataOnly zone now s).1 = .ok none →
      (job.runDataOnly zone now s).2 = s) ∧
    ∀ (runs : List Run) (q : Place),
      (∃ bytes, Run.LastWritten q bytes s runs ∧ (Run.execAll s runs).fileAt q = some bytes) ∨
        Run.Untouched q s runs ∧ (Run.execAll s runs).fileAt q = s.fileAt q := by
  refine ⟨?_, ?_, ?_, ?_⟩
  · intro job stats hreal hok
    obtain ⟨dump, place, hread, rfl, hwrote⟩ := Job.runSchema_real hreal hok
    refine ⟨dump, place, hread, ?_, ?_, hwrote⟩
    · simp only [SchemaStats.ofTexts]
    · simp only [SchemaStats.ofTexts]
  · intro job zone now stats hreal hok
    exact Job.runDataOnly_real hreal hok
  · intro job zone now hok
    exact Job.runDataOnly_empty hok
  · intro runs q
    exact Run.fileAt_execAll runs s q

/-- Runs from `a` to `./a`, which is the same file: of the whole dump, and of its data alone. -/
theorem runs_write_conversions_same_file :
    let s := fresh.put [[0x68], [0x64], [0x61]] (.file "INSERT INTO t VALUES(1609459200);".toUTF8) rfl
    let job : Job := ⟨⟨[0x61]⟩, ⟨[0x2E, 0x2F, 0x61]⟩, false⟩
    let now : Time.Stamp := ⟨⟨2024, 1, 1⟩, 0, 0, 0⟩
    (∃ dump place, Dump.read s job.input = .ok dump ∧
      Dump.Wrote s (job.runSchema s).2 job.output place (Dump.encodeText (Schema.convert dump))) ∧
    ∃ dump content place, Dump.read s job.input = .ok dump ∧
      DataOnly.convert .utc now dump = some ⟨content, ⟨1, ⟨1, 0⟩⟩⟩ ∧
      Dump.Wrote s (job.runDataOnly .utc now s).2 job.output place (Dump.encodeText content) := by
  intro s job now
  obtain ⟨hschema, hdata, -, -⟩ := runs_write_conversions s
  have hstats : (job.runSchema s).1 = .ok ⟨33, 143⟩ := by decide +kernel
  have hcounts : (job.runDataOnly .utc now s).1 = .ok (some ⟨1, ⟨1, 0⟩⟩) := by decide +kernel
  obtain ⟨dump, place, hread, -, -, hwrote⟩ := hschema job _ rfl hstats
  exact ⟨⟨dump, place, hread, hwrote⟩, hdata job .utc now _ rfl hcounts⟩

end SqlDump
