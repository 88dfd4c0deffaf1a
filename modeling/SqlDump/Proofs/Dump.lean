import SqlDump.Proofs.Plan
import SqlDump.Proofs.Result
import SqlDump.Proofs.Text.Newline
/-!
# What is read of a file

Compression changes where the bytes of a dump come from and nothing else (`textOf_of_decode`). The bytes must be
UTF-8, and their text is read with line feeds for all line ends (`textOf_plain`), so that no dump holds a carriage
return (`no_cr_read`).
-/

namespace SqlDump.Dump

open Storage Text

variable {compression : Compression} {content bytes : ByteArray} {s : Storage} {path : Path}

theorem decodeText?_encodeText (t : List Char) : decodeText? (encodeText t) = some t := by
  have hvalid : (String.ofList t).toUTF8.IsValidUTF8 := (String.ofList t).isValidUTF8
  unfold decodeText? encodeText String.fromUTF8?
  rw [dif_pos hvalid]
  show some (String.ofList t).toList = some t
  rw [String.toList_ofList]

theorem textOf_plain (bytes : ByteArray) : textOf .plain bytes =
    match decodeText? bytes with
    | some t => .ok (unifyNewlines t)
    | none => .error .notUtf8 := by
  unfold textOf
  simp only [← normalizeNewlines_eq]
  rfl

theorem textOf_of_decode (h : compression.decode content = .ok bytes) :
    textOf compression content = textOf .plain bytes := by
  unfold textOf
  rw [h]
  rfl

/-- An error of the decompressor comes first, whatever it has put out until then. -/
theorem textOf_of_decode_error {e : Compression.Error} (h : compression.decode content = .error e) :
    textOf compression content = .error (.compression e) := by
  unfold textOf
  rw [h]
  rfl

theorem no_cr_textOf {dump : List Char} (h : textOf compression content = .ok dump) : '\r' ∉ dump := by
  cases hdecode : compression.decode content with
  | error e =>
    rw [textOf_of_decode_error hdecode] at h
    cases h
  | ok bytes =>
    rw [textOf_of_decode hdecode, textOf_plain] at h
    split at h
    · cases h
      exact no_cr_unifyNewlines _
    · cases h

theorem read_file (h : s.lookup path = .ok (.file content)) :
    read s path = (textOf (.ofPath path) content).mapError fun cause => ⟨.reading, path, cause⟩ := by
  rw [read_eq, readFile, h]
  rfl

/-- A plain file is read as its text, with line feeds for all line ends. -/
theorem read_plain {t : List Char} (hplain : Compression.ofPath path = .plain)
    (h : s.lookup path = .ok (.file content)) (htext : decodeText? content = some t) :
    read s path = .ok (unifyNewlines t) := by
  rw [read_file h, hplain, textOf_plain, htext]
  rfl

theorem no_cr_read {dump : List Char} (h : read s path = .ok dump) : '\r' ∉ dump := by
  rw [read_eq] at h
  obtain ⟨content, -, h⟩ := bind_eq_ok.1 h
  exact no_cr_textOf (mapError_eq_ok.1 h)

end SqlDump.Dump
