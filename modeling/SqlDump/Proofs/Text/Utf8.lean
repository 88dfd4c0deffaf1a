import SqlDump.Proofs.Text.Lossy
/-!
# Texts as bytes

Bytes that are UTF-8 are the bytes of one text (`utf8_injective`), and they are read as it (`fromUTF8?_utf8`). A
character of ASCII is one byte (`utf8_of_ascii`).
-/

namespace SqlDump.Text

/-- The UTF-8 of a text. -/
def utf8 (s : List Char) : List UInt8 := s.flatMap String.utf8EncodeChar

/-- The byte of a character of ASCII. -/
def asciiByte (c : Char) : UInt8 := .ofNat c.toNat

variable {bytes : List UInt8} {s t : List Char}

theorem utf8_injective (h : utf8 s = utf8 t) : s = t := by
  have hshown := congrArg lossy h
  unfold utf8 at hshown
  rwa [lossy_encode, lossy_encode] at hshown

theorem toUTF8_eq_utf8 (text : String) : text.toUTF8.data.toList = utf8 text.toList := by
  rw [String.toUTF8, ← String.utf8Encode_toList]
  exact List.toList_data_toByteArray

theorem fromUTF8?_utf8 (s : List Char) : String.fromUTF8? (utf8 s).toByteArray = some (String.ofList s) := by
  have hbytes : (utf8 s).toByteArray = (String.ofList s).toByteArray := String.toByteArray_ofList.symm
  have hvalid : (String.ofList s).toByteArray.IsValidUTF8 := (String.ofList s).isValidUTF8
  rw [hbytes, String.fromUTF8?, dif_pos hvalid]
  rfl

theorem fromUTF8?_eq_none (h : ∀ s, bytes ≠ utf8 s) : String.fromUTF8? bytes.toByteArray = none := by
  refine dif_neg fun hvalid => ?_
  obtain ⟨s, hs⟩ := hvalid
  refine h s ?_
  have hlists := congrArg (fun data : ByteArray => data.data.toList) hs
  dsimp only [List.utf8Encode] at hlists
  rwa [List.toList_data_toByteArray, List.toList_data_toByteArray] at hlists

/-! ## ASCII -/

theorem utf8_of_ascii (h : ∀ c ∈ s, c.toNat < 128) : utf8 s = s.map asciiByte := by
  unfold utf8
  rw [List.map_eq_flatMap]
  refine List.flatMap_congr fun c hc => ?_
  have hle : c.val.toNat ≤ 0x7F := Nat.le_of_lt_succ (h c hc)
  exact if_pos hle

end SqlDump.Text
