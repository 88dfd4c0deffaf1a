import SqlDump.Proofs.LineEnds
import SqlDump.Proofs.Storage.Creation
/-!
# Outputs and what is read of them

An output whose path is names with single slashes between them can be written unless a file stands on the way to
it, or a directory in its place (`Obstacle`). Then nothing is changed at all, and else the directories that are
missing are made and the file is written (`write_ofNames`). Wherever an output was written, its text is read back,
with line feeds for all line ends (`outputs_read_back`).
-/

namespace SqlDump

open Storage Text

namespace Dump

/-! ## Writing below the current directory -/

/-- What keeps an output from being written, and the failure that reports it: a file where its directory would be, a
file further up, or a directory in its own place. -/
inductive Obstacle (s : Storage) (names : List Name) (name : Name) : Failure → Prop
  | parent {content : ByteArray} (hfile : s.entryAt (s.current ++ names) = some (.file content)) :
      Obstacle s names name ⟨.creating, .ofNames names, .storage .alreadyExists⟩
  | above {front : List Name} {content : ByteArray} (hfront : front <+: names) (hne : front ≠ names)
      (hfile : s.entryAt (s.current ++ front) = some (.file content)) :
      Obstacle s names name ⟨.creating, .ofNames names, .storage .notADirectory⟩
  | target (hdirectory : s.entryAt (s.current ++ (names ++ [name])) = some .directory) :
      Obstacle s names name ⟨.writing, .ofNames (names ++ [name]), .storage .isADirectory⟩

variable {s s' : Storage} {text : List Char} {names : List Name} {name : Name} {failure : Failure}

/-- Nothing is in the way, or something is. -/
theorem clear_or_obstacle (s : Storage) (names : List Name) (name : Name) :
    (s.Clear names ∧ s.entryAt (s.current ++ (names ++ [name])) ≠ some .directory) ∨
      ∃ failure, Obstacle s names name failure := by
  by_cases hclear : s.Clear names
  · by_cases hdirectory : s.entryAt (s.current ++ (names ++ [name])) = some .directory
    · exact .inr ⟨_, .target hdirectory⟩
    · exact .inl ⟨hclear, hdirectory⟩
  · unfold Storage.Clear at hclear
    push Not at hclear
    obtain ⟨front, content, hfront, hfile⟩ := hclear
    by_cases hne : front = names
    · exact .inr ⟨_, .parent (hne ▸ hfile)⟩
    · exact .inr ⟨_, .above hfront hne hfile⟩

theorem Obstacle.not_clear (hobstacle : Obstacle s names name failure) :
    ¬ (s.Clear names ∧ s.entryAt (s.current ++ (names ++ [name])) ≠ some .directory) := by
  rintro ⟨hclear, hplace⟩
  cases hobstacle with
  | parent hfile => exact hclear names _ (List.prefix_refl names) hfile
  | above hfront hne hfile => exact hclear _ _ hfront hfile
  | target hdirectory => exact hplace hdirectory

section Parent

variable {path parent : Path}

theorem write_of_made (hparent : path.parent? = some parent) (hmade : s.makeDirectories parent = (.ok (), s')) :
    write s path text = writeFile s' path (encodeText text) := by
  rw [write_eq, hparent]
  dsimp only
  rw [hmade]

theorem write_of_not_made {fault : Fault} (hparent : path.parent? = some parent)
    (hfault : s.makeDirectories parent = (.error fault, s')) :
    write s path text = (.error ⟨.creating, parent, .storage fault⟩, s') := by
  rw [write_eq, hparent]
  dsimp only
  rw [hfault]

end Parent

/-- With something in the way, nothing is changed. -/
theorem write_obstacle (h : ∀ part ∈ names ++ [name], IsPlainName part) (hobstacle : Obstacle s names name failure)
    (text : List Char) : write s (.ofNames (names ++ [name])) text = (.error failure, s) := by
  have hnames := (List.forall_mem_append.1 h).1
  have hparent := Path.parent?_ofNames (forall_isName h)
  cases hobstacle with
  | parent hfile => exact write_of_not_made hparent (makeDirectories_file hnames hfile)
  | above hfront hne hfile => exact write_of_not_made hparent (makeDirectories_behind_file hnames hfront hne hfile)
  | target hdirectory =>
    have hd := entryAt_front hdirectory
    rw [write_of_made hparent (makeDirectories_directory hnames hd), writeFile,
      writeFile_of_directory (placeOfNew_of_directory h hd) hdirectory]

/-- With nothing in the way, the directories and the file are there afterwards, and the rest is as before. -/
theorem write_clear (h : ∀ part ∈ names ++ [name], IsPlainName part) (hclear : s.Clear names)
    (hplace : s.entryAt (s.current ++ (names ++ [name])) ≠ some .directory) (text : List Char) :
    ∃ s', write s (.ofNames (names ++ [name])) text = (.ok (), s') ∧ s'.current = s.current ∧
      s'.lookup (.ofNames (names ++ [name])) = .ok (.file (encodeText text)) ∧
      ∀ q, s'.entryAt q = if q = s.current ++ (names ++ [name]) then some (.file (encodeText text))
        else if q <+: s.current ++ (names ++ [name]) then some .directory else s.entryAt q := by
  obtain ⟨s', hmade, hopened⟩ := makeDirectories_clear (List.forall_mem_append.1 h).1 hclear
  have hfree : s'.entryAt (s.current ++ (names ++ [name])) ≠ some .directory := by
    rwa [hopened.entryAt_concat]
  have hslash := Path.endsWithSlash_ofNames (forall_isName h)
  obtain ⟨s'', hwritten, hcurrent, hentries⟩ :=
    writeFile_of_free (hopened.placeOfNew h) hslash hfree (encodeText text)
  obtain ⟨-, -, -, hlookup, -, -⟩ := writeFile_spec hwritten
  refine ⟨s'', ?_, hcurrent.trans hopened.current, hlookup, fun q => ?_⟩
  · rw [write_of_made (Path.parent?_ofNames (forall_isName h)) hmade, writeFile, hwritten]
  · rw [hentries, hopened.entries, ← List.append_assoc]
    by_cases hq : q = s.current ++ names ++ [name]
    · rw [if_pos hq, if_pos hq]
    · simp only [List.prefix_concat_iff, hq, false_or, if_false]

/-- An output below the current directory is written if no file is on the way to it and no directory in its place.
Then its directories are there and the rest is as before. Else nothing is changed, and the failure names what could
not be made. -/
theorem write_ofNames (s : Storage) (text : List Char) (names : List Name) (name : Name)
    (h : ∀ part ∈ names ++ [name], IsPlainName part) :
    ((∃ s', write s (.ofNames (names ++ [name])) text = (.ok (), s')) ↔
      (∀ front content, front <+: names → s.entryAt (s.current ++ front) ≠ some (.file content)) ∧
        s.entryAt (s.current ++ (names ++ [name])) ≠ some .directory) ∧
    (∀ s', write s (.ofNames (names ++ [name])) text = (.ok (), s') → s'.current = s.current ∧
      s'.lookup (.ofNames (names ++ [name])) = .ok (.file (encodeText text)) ∧
      ∀ q, s'.entryAt q = if q = s.current ++ (names ++ [name]) then some (.file (encodeText text))
        else if q <+: s.current ++ (names ++ [name]) then some .directory else s.entryAt q) ∧
    (∀ failure s', write s (.ofNames (names ++ [name])) text = (.error failure, s') ↔
      s' = s ∧ Obstacle s names name failure) ∧
    ∀ failure, Obstacle s names name failure → failure.message =
      (if failure.stage = .creating then "failed to create " ++ (Path.ofNames names).display
        else "failed to write " ++ (Path.ofNames (names ++ [name])).display) ++ ": " ++ failure.cause.message := by
  have hmessage : ∀ failure, Obstacle s names name failure → failure.message =
      (if failure.stage = .creating then "failed to create " ++ (Path.ofNames names).display
        else "failed to write " ++ (Path.ofNames (names ++ [name])).display) ++ ": " ++ failure.cause.message := by
    intro failure hobstacle
    cases hobstacle <;> rfl
  rcases clear_or_obstacle s names name with hclear | ⟨failure, hobstacle⟩
  · obtain ⟨s', hwrite, hwritten⟩ := write_clear h hclear.1 hclear.2 text
    rw [hwrite]
    refine ⟨⟨fun _ => hclear, fun _ => ⟨s', rfl⟩⟩, ?_, ?_, hmessage⟩
    · rintro _ ⟨⟩
      exact hwritten
    · intro failure s''
      refine ⟨fun herror => (by cases herror), ?_⟩
      rintro ⟨-, hobstacle⟩
      exact absurd hclear hobstacle.not_clear
  · have hwrite := write_obstacle h hobstacle text
    refine ⟨⟨?_, fun hclear => absurd hclear hobstacle.not_clear⟩, ?_, ?_, hmessage⟩
    · rintro ⟨s', hok⟩
      rw [hwrite] at hok
      cases hok
    · intro s' hok
      rw [hwrite] at hok
      cases hok
    · intro failure' s'
      constructor
      · intro herror
        rw [hwrite] at herror
        cases herror
        exact ⟨rfl, hobstacle⟩
      · rintro ⟨rfl, hobstacle'⟩
        exact write_obstacle h hobstacle' text

/-- The way to `a/b/c` leads through the file `a`. -/
theorem write_ofNames_through_file :
    let s := fresh.put [[0x68], [0x64], [0x61]] (.file ⟨#[]⟩) rfl
    (∀ part ∈ [[0x61], [0x62]] ++ [[0x63]], IsPlainName part) ∧
      write s (.ofNames ([[0x61], [0x62]] ++ [[0x63]])) ['x'] =
        (.error ⟨.creating, .ofNames [[0x61], [0x62]], .storage .notADirectory⟩, s) := by
  intro s
  have hplain : ∀ part ∈ [[0x61], [0x62]] ++ [[0x63]], IsPlainName part := by decide
  have hfile : s.entryAt (s.current ++ [[0x61]]) = some (.file ⟨#[]⟩) := rfl
  have hresult := (write_ofNames s ['x'] [[0x61], [0x62]] [0x63] hplain).2.2.1
  exact ⟨hplain, (hresult _ s).2 ⟨rfl, .above (List.prefix_append [[0x61]] [[0x62]]) (by simp) hfile⟩⟩

/-! ## Reading an output back -/

/-- A plain file that was written is read as its text, with line feeds for all line ends. -/
theorem Wrote.read {path : Path} {place : Place} (h : Wrote s s' path place (encodeText text))
    (hplain : Compression.ofPath path = .plain) : read s' path = .ok (normalizeNewlines text) := by
  rw [read_plain hplain h.content (decodeText?_encodeText text), normalizeNewlines_eq]

theorem Wrote.read_of_no_cr {path : Path} {place : Place} (h : Wrote s s' path place (encodeText text))
    (hplain : Compression.ofPath path = .plain) (htext : '\r' ∉ text) : Dump.read s' path = .ok text := by
  rw [h.read hplain, normalizeNewlines_eq, unifyNewlines_eq_self htext]

end Dump

/-- A plain output is read back as its text, with line feeds for all line ends. Conversions have no others, so
after a run its output is read as the conversion itself. -/
theorem outputs_read_back :
    (∀ (s s' : Storage) (path : Path) (text : List Char), Compression.ofPath path = .plain →
      Dump.write s path text = (.ok (), s') → Dump.read s' path = .ok (normalizeNewlines text)) ∧
    (∀ text, normalizeNewlines text = text ↔ '\r' ∉ text) ∧
    (∀ (job : Job) (s : Storage) (stats : SchemaStats), job.dryRun = false →
      Compression.ofPath job.output = .plain → (job.runSchema s).1 = .ok stats →
      ∃ dump, Dump.read s job.input = .ok dump ∧ '\r' ∉ Schema.convert dump ∧
        Dump.read (job.runSchema s).2 job.output = .ok (Schema.convert dump)) ∧
    ∀ (job : Job) (zone : Time.Zone) (now : Time.Stamp) (s : Storage) (stats : DataOnly.Stats),
      job.dryRun = false → Compression.ofPath job.output = .plain →
      (job.runDataOnly zone now s).1 = .ok (some stats) →
      ∃ dump content, Dump.read s job.input = .ok dump ∧
        DataOnly.convert zone now dump = some ⟨content, stats⟩ ∧ '\r' ∉ content ∧
        Dump.read (job.runDataOnly zone now s).2 job.output = .ok content := by
  refine ⟨?_, ?_, ?_, ?_⟩
  · intro s s' path text hplain hwrite
    obtain ⟨place, hwrote⟩ := Dump.wrote_write hwrite
    exact hwrote.read hplain
  · intro text
    rw [normalizeNewlines_eq]
    exact ⟨fun h => h ▸ no_cr_unifyNewlines text, unifyNewlines_eq_self⟩
  · intro job s stats hreal hplain hok
    obtain ⟨dump, place, hread, -, hwrote⟩ := Job.runSchema_real hreal hok
    have hcr := Schema.no_cr_convert (Dump.no_cr_read hread)
    exact ⟨dump, hread, hcr, hwrote.read_of_no_cr hplain hcr⟩
  · intro job zone now s stats hreal hplain hok
    obtain ⟨dump, content, place, hread, hconvert, hwrote⟩ := Job.runDataOnly_real hreal hok
    have hcr := DataOnly.no_cr_convert (Dump.no_cr_read hread) hconvert
    exact ⟨dump, content, hread, hconvert, hcr, hwrote.read_of_no_cr hplain hcr⟩

/-- A text with a byte order mark, a zero character and a carriage return, and both conversions of the file `a`. -/
theorem outputs_read_back_bom :
    let s := fresh.put [[0x68], [0x64], [0x61]] (.file "INSERT INTO t VALUES(1609459200);".toUTF8) rfl
    let job : Job := ⟨⟨[0x61]⟩, ⟨[0x62]⟩, false⟩
    let now : Time.Stamp := ⟨⟨2024, 1, 1⟩, 0, 0, 0⟩
    (∃ s', Dump.write fresh ⟨[0x61]⟩ "\uFEFF\x00\r".toList = (.ok (), s') ∧
      Dump.read s' ⟨[0x61]⟩ = .ok "\uFEFF\x00\n".toList) ∧
    (∃ dump, Dump.read s job.input = .ok dump ∧
      Dump.read (job.runSchema s).2 job.output = .ok (Schema.convert dump)) ∧
    ∃ dump content, Dump.read s job.input = .ok dump ∧
      DataOnly.convert .utc now dump = some ⟨content, ⟨1, ⟨1, 0⟩⟩⟩ ∧
      Dump.read (job.runDataOnly .utc now s).2 job.output = .ok content := by
  intro s job now
  obtain ⟨hwrite, -, hschema, hdata⟩ := outputs_read_back
  have hends : normalizeNewlines "\uFEFF\x00\r".toList = "\uFEFF\x00\n".toList := by decide
  have hstats : (job.runSchema s).1 = .ok ⟨33, 143⟩ := by decide +kernel
  have hcounts : (job.runDataOnly .utc now s).1 = .ok (some ⟨1, ⟨1, 0⟩⟩) := by decide +kernel
  obtain ⟨dump, hread, -, hback⟩ := hschema job s _ rfl rfl hstats
  obtain ⟨dump', content, hread', hconvert, -, hback'⟩ := hdata job .utc now s _ rfl rfl hcounts
  exact ⟨⟨_, rfl, hends ▸ hwrite fresh _ ⟨[0x61]⟩ _ rfl rfl⟩, ⟨dump, hread, hback⟩,
    ⟨dump', content, hread', hconvert, hback'⟩⟩

end SqlDump
