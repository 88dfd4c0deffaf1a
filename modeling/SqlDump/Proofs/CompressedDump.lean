import SqlDump.Proofs.Compression
import SqlDump.Proofs.Extension
import SqlDump.Proofs.SameDump
/-!
# Compressed dumps

A compressed dump is read like the plain file of its bytes, so that runs do not tell them apart, and what the
decompressor refuses is not read at all (`compression_is_transparent`).
-/

namespace SqlDump

open Storage Text

namespace Compression

variable {dir : List UInt8} {stem extension : Name} {text : String} {format : Compression}

/-- Such an extension ends a file name. -/
theorem spells_spec (hmem : text ∈ names format) (h : Spells extension text) :
    slash ∉ extension ∧ dot ∉ extension := by
  have hletters : ∀ name ∈ names format, slash ∉ lowerBytes name ∧ dot ∉ lowerBytes name := by
    cases format <;> decide +kernel
  have hmap := (spells_iff hmem).1 h
  have hkept : ∀ {byte}, lowerByte byte = byte → byte ∈ extension → byte ∈ lowerBytes text := by
    intro byte hbyte hin
    rw [← hmap]
    exact List.mem_map.2 ⟨byte, hin, hbyte⟩
  obtain ⟨hslash, hdot⟩ := hletters text hmem
  exact ⟨fun hin => hslash (hkept (by decide) hin), fun hin => hdot (hkept (by decide) hin)⟩

theorem ofPath_append (hdir : IsDirectoryPart dir) (hstem : stem ≠ [] ∧ slash ∉ stem)
    (hextension : slash ∉ extension ∧ dot ∉ extension) :
    ofPath ⟨dir ++ (stem ++ dot :: extension)⟩ = ofExtension extension := by
  have hlast := lastComponent_append hdir hstem hextension.1 .nil
  rw [List.append_nil] at hlast
  exact ofPath_of_lastComponent hlast hstem.1 hextension.2

theorem ofPath_of_spells (hdir : IsDirectoryPart dir) (hstem : stem ≠ [] ∧ slash ∉ stem)
    (hmem : (text, format) ∈ extensions) (h : Spells extension text) :
    ofPath ⟨dir ++ (stem ++ dot :: extension)⟩ = format := by
  obtain ⟨hname, hformat⟩ := mem_names_of_mem_extensions _ hmem
  rw [ofPath_append hdir hstem (spells_spec hname h)]
  exact (ofExtension_eq_iff hformat).2 ⟨text, hname, h⟩

/-- The extension of plain dumps. -/
def sqlExtension : Name := lowerBytes "sql"

theorem ofPath_sql (hdir : IsDirectoryPart dir) (hstem : stem ≠ [] ∧ slash ∉ stem) :
    ofPath ⟨dir ++ (stem ++ dot :: sqlExtension)⟩ = plain := by
  rw [ofPath_append hdir hstem (by decide), sqlExtension, lowerBytes, toUTF8_eq_utf8, ofExtension_utf8]
  decide

end Compression

/-! ## Reading -/

/-- The dump at a path cannot be read, for this cause, so that no run goes any further. -/
structure Unreadable (s : Storage) (path : Path) (cause : Dump.Cause) : Prop where
  read : Dump.read s path = .error ⟨.reading, path, cause⟩
  runSchema : ∀ output dryRun, Job.runSchema ⟨path, output, dryRun⟩ s = (.error ⟨.reading, path, cause⟩, s)
  runDataOnly : ∀ output dryRun zone now,
    Job.runDataOnly ⟨path, output, dryRun⟩ zone now s = (.error ⟨.reading, path, cause⟩, s)

theorem Unreadable.of_read {s : Storage} {path : Path} {cause : Dump.Cause}
    (h : Dump.read s path = .error ⟨.reading, path, cause⟩) : Unreadable s path cause where
  read := h
  runSchema _ _ := Job.runSchema_of_error h
  runDataOnly _ _ _ _ := Job.runDataOnly_of_error h

/-- The same dump is read at two paths, and the runs on it are alike, or neither is read, for the same cause. -/
def ReadAlike (s s' : Storage) (path path' : Path) : Prop :=
  (∃ dump, Dump.read s path = .ok dump ∧ Dump.read s' path' = .ok dump ∧
    ∀ output dryRun, Job.SameRuns ⟨path, output, dryRun⟩ ⟨path', output, dryRun⟩ s s') ∨
  ∃ cause, Unreadable s path cause ∧ Unreadable s' path' cause

theorem readAlike_of_textOf {s s' : Storage} {path path' : Path} {content content' : ByteArray}
    (h : s.lookup path = .ok (.file content)) (h' : s'.lookup path' = .ok (.file content'))
    (htext : Dump.textOf (.ofPath path) content = Dump.textOf (.ofPath path') content') :
    ReadAlike s s' path path' := by
  have hread := Dump.read_file h
  have hread' := Dump.read_file h'
  rw [htext] at hread
  cases hresult : Dump.textOf (.ofPath path') content' with
  | ok dump =>
    rw [hresult] at hread hread'
    exact .inl ⟨dump, hread, hread', fun output dryRun =>
      Job.SameDump.sameRuns ⟨hread, hread', rfl, rfl⟩⟩
  | error cause =>
    rw [hresult] at hread hread'
    exact .inr ⟨cause, .of_read hread, .of_read hread'⟩

/-- A compressed dump is read like the plain file of the bytes in it. If they cannot be got, this is the error,
whatever else is wrong with them. -/
theorem compression_is_transparent {dir : List UInt8} (hdir : IsDirectoryPart dir) {stem : Name}
    (hstem : stem ≠ [] ∧ slash ∉ stem) {text : String} {format : Compression}
    (hmem : (text, format) ∈ Compression.extensions) {extension : Name}
    (hspells : Compression.Spells extension text) (s : Storage) (content : ByteArray)
    (hlookup : s.lookup ⟨dir ++ (stem ++ dot :: extension)⟩ = .ok (.file content)) :
    (∀ (bytes : ByteArray) (s' : Storage), format.decode content = .ok bytes →
      s'.lookup ⟨dir ++ (stem ++ dot :: Compression.sqlExtension)⟩ = .ok (.file bytes) →
      ReadAlike s s' ⟨dir ++ (stem ++ dot :: extension)⟩ ⟨dir ++ (stem ++ dot :: Compression.sqlExtension)⟩) ∧
    ∀ e, format.decode content = .error e →
      Unreadable s ⟨dir ++ (stem ++ dot :: extension)⟩ (.compression e) := by
  have hformat := Compression.ofPath_of_spells hdir hstem hmem hspells
  have hplain := Compression.ofPath_sql hdir hstem
  refine ⟨fun bytes s' hdecode hlookup' => ?_, fun e hdecode => ?_⟩
  · refine readAlike_of_textOf hlookup hlookup' ?_
    rw [hformat, hplain, Dump.textOf_of_decode hdecode]
  · refine .of_read ?_
    rw [Dump.read_file hlookup, hformat, Dump.textOf_of_decode_error hdecode]
    rfl

/-- The files `a.Gz` and `a.sql` hold the same text, the one compressed. -/
theorem compression_is_transparent_gzip :
    let s := (fresh.put [[0x68], [0x64], [0x61, 0x2E, 0x47, 0x7A]] (.file Compression.memberA) rfl).put
      [[0x68], [0x64], [0x61, 0x2E, 0x73, 0x71, 0x6C]] (.file ⟨#[97]⟩) rfl
    ReadAlike s s ⟨[0x61, 0x2E, 0x47, 0x7A]⟩ ⟨[0x61, 0x2E, 0x73, 0x71, 0x6C]⟩ := by
  intro s
  have hstem : ([0x61] : Name) ≠ [] ∧ slash ∉ ([0x61] : Name) := by decide
  have hmem : ("gz", Compression.gzip) ∈ Compression.extensions := by decide
  have hspells : Compression.Spells [0x47, 0x7A] "gz" := by
    show List.Forall₂ Compression.IsCaseOf _ [0x67, 0x7A]
    exact .cons (.inr (by decide)) (.cons (.inl rfl) .nil)
  exact (compression_is_transparent (.inl rfl) hstem hmem hspells s Compression.memberA rfl).1 ⟨#[97]⟩ s rfl rfl

end SqlDump
