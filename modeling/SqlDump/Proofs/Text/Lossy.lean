import Mathlib
import SqlDump.Storage.Path
/-!
# Text that is shown as it is

The UTF-8 of a text holds no byte that needs a replacement character: each character is read back from its
bytes (`lossyFrom_encodeChar`), so that a path that a text spells is shown as that text.
-/

namespace SqlDump.Text

/-- The byte lies in the range. -/
abbrev Within (range : UInt8 × UInt8) (byte : UInt8) : Prop := range.1 ≤ byte ∧ byte ≤ range.2

theorem matching_append {ranges : List (UInt8 × UInt8)} {others : List UInt8}
    (h : List.Forall₂ Within ranges others) (rest : List UInt8) :
    matching ranges (others ++ rest) = others.length := by
  induction h with
  | nil => cases rest <;> rfl
  | cons hbyte _ ih =>
    rw [List.cons_append, matching, if_pos hbyte, ih, List.length_cons, Nat.add_comm]

theorem lossyFrom_skip (shown : List Char) (covered rest : List UInt8) :
    lossyFrom covered.length shown (covered ++ rest) = lossyFrom 0 shown rest := by
  induction covered with
  | nil => rfl
  | cons byte covered ih => exact ih

/-- A first byte with as many others behind it as it asks for is shown as their character. -/
theorem lossyFrom_character {first : UInt8} {others : List UInt8} (hfirst : 0x80 ≤ first) (hne : others ≠ [])
    (h : List.Forall₂ Within (continuations first) others) (shown : List Char) (rest : List UInt8) :
    lossyFrom 0 shown (first :: (others ++ rest)) = lossyFrom 0 (assemble first others :: shown) rest := by
  have hranges : (continuations first).isEmpty = false := by
    cases hc : continuations first with
    | nil =>
      rw [hc, List.forall₂_nil_left_iff] at h
      exact absurd h hne
    | cons range ranges => rfl
  have hlen := h.length_eq
  rw [lossyFrom, if_neg (by simpa using hfirst)]
  simp [matching_append h, hlen, hranges, lossyFrom_skip]

/-! ## The bytes of a character -/

/-- What may follow the first byte of a character, by its number. -/
theorem continuations_ofNat : ∀ n < 245, 194 ≤ n → continuations (.ofNat n) =
    if n < 224 then [(0x80, 0xBF)]
    else if n = 224 then [(0xA0, 0xBF), (0x80, 0xBF)]
    else if n = 237 then [(0x80, 0x9F), (0x80, 0xBF)]
    else if n < 240 then [(0x80, 0xBF), (0x80, 0xBF)]
    else if n = 240 then [(0x90, 0xBF), (0x80, 0xBF), (0x80, 0xBF)]
    else if n < 244 then [(0x80, 0xBF), (0x80, 0xBF), (0x80, 0xBF)]
    else [(0x80, 0x8F), (0x80, 0xBF), (0x80, 0xBF)] := by
  decide +kernel

theorem within_ofNat (low high : Nat) {n : Nat} (hlow : low ≤ n) (hhigh : n ≤ high) (h : high < 256) :
    Within (.ofNat low, .ofNat high) (.ofNat n) := by
  simp only [Within, UInt8.le_iff_toNat_le, UInt8.toNat_ofNat']
  omega

theorem within_last (n : Nat) : Within (0x80, 0xBF) (.ofNat (n % 64 + 128)) :=
  within_ofNat 128 191 (by omega) (by omega) (by omega)

/-- The numbers below 2048 would fit in two bytes, and those from 55296 to 57343 are no characters. -/
theorem follow_three {v : Nat} (h : 0x800 ≤ v) (h' : v < 0x10000) (hvalid : v < 0xD800 ∨ 0xDFFF < v) :
    List.Forall₂ Within (continuations (.ofNat (v / 4096 % 16 + 224)))
      [.ofNat (v / 64 % 64 + 128), .ofNat (v % 64 + 128)] := by
  rw [continuations_ofNat _ (by omega) (by omega), if_neg (by omega)]
  split
  case isTrue =>
    exact .cons (within_ofNat 160 191 (by omega) (by omega) (by omega)) (.cons (within_last v) .nil)
  case isFalse =>
  split
  case isTrue =>
    exact .cons (within_ofNat 128 159 (by omega) (by omega) (by omega)) (.cons (within_last v) .nil)
  case isFalse =>
    rw [if_pos (by omega)]
    exact .cons (within_last (v / 64)) (.cons (within_last v) .nil)

/-- The numbers below 65536 would fit in three bytes, and those from 1114112 on are no characters. -/
theorem follow_four {v : Nat} (h : 0x10000 ≤ v) (h' : v < 0x110000) :
    List.Forall₂ Within (continuations (.ofNat (v / 262144 % 8 + 240)))
      [.ofNat (v / 4096 % 64 + 128), .ofNat (v / 64 % 64 + 128), .ofNat (v % 64 + 128)] := by
  have hrest : List.Forall₂ Within [(0x80, 0xBF), (0x80, 0xBF)]
      [.ofNat (v / 64 % 64 + 128), .ofNat (v % 64 + 128)] :=
    .cons (within_last (v / 64)) (.cons (within_last v) .nil)
  rw [continuations_ofNat _ (by omega) (by omega), if_neg (by omega), if_neg (by omega), if_neg (by omega),
    if_neg (by omega)]
  split
  case isTrue => exact .cons (within_ofNat 144 191 (by omega) (by omega) (by omega)) hrest
  case isFalse =>
  split
  case isTrue => exact .cons (within_last (v / 4096)) hrest
  case isFalse => exact .cons (within_ofNat 128 143 (by omega) (by omega) (by omega)) hrest

theorem assemble_two {v : Nat} (h : v < 0x800) :
    assemble (.ofNat (v / 64 % 32 + 192)) [.ofNat (v % 64 + 128)] = Char.ofNat v := by
  have hv : 64 * ((v / 64 % 32 + 192) % 2 ^ 8 % 32) + (v % 64 + 128) % 2 ^ 8 % 64 = v := by omega
  simpa only [assemble, List.length_cons, List.length_nil, List.foldl_cons, List.foldl_nil,
    UInt8.toNat_ofNat'] using congrArg Char.ofNat hv

theorem assemble_three {v : Nat} (h : v < 0x10000) :
    assemble (.ofNat (v / 4096 % 16 + 224)) [.ofNat (v / 64 % 64 + 128), .ofNat (v % 64 + 128)] = Char.ofNat v := by
  have hv : 64 * (64 * ((v / 4096 % 16 + 224) % 2 ^ 8 % 16) + (v / 64 % 64 + 128) % 2 ^ 8 % 64) +
      (v % 64 + 128) % 2 ^ 8 % 64 = v := by omega
  simpa only [assemble, List.length_cons, List.length_nil, List.foldl_cons, List.foldl_nil,
    UInt8.toNat_ofNat'] using congrArg Char.ofNat hv

theorem assemble_four {v : Nat} (h : v < 0x110000) :
    assemble (.ofNat (v / 262144 % 8 + 240))
      [.ofNat (v / 4096 % 64 + 128), .ofNat (v / 64 % 64 + 128), .ofNat (v % 64 + 128)] = Char.ofNat v := by
  have hv : 64 * (64 * (64 * ((v / 262144 % 8 + 240) % 2 ^ 8 % 8) + (v / 4096 % 64 + 128) % 2 ^ 8 % 64) +
      (v / 64 % 64 + 128) % 2 ^ 8 % 64) + (v % 64 + 128) % 2 ^ 8 % 64 = v := by omega
  simpa only [assemble, List.length_cons, List.length_nil, List.foldl_cons, List.foldl_nil,
    UInt8.toNat_ofNat'] using congrArg Char.ofNat hv

/-- The bytes of a character are shown as it. -/
theorem lossyFrom_encodeChar (c : Char) (shown : List Char) (rest : List UInt8) :
    lossyFrom 0 shown (String.utf8EncodeChar c ++ rest) = lossyFrom 0 (c :: shown) rest := by
  have hc : Char.ofNat c.val.toNat = c := Char.ofNat_toNat c
  have hvalid : c.val.toNat < 0xD800 ∨ 0xDFFF < c.val.toNat ∧ c.val.toNat < 0x110000 := c.valid
  unfold String.utf8EncodeChar
  generalize c.val.toNat = v at hc hvalid
  have hfirst : ∀ n, 128 ≤ n → n < 256 → 0x80 ≤ UInt8.ofNat n := fun n hlow hhigh =>
    (within_ofNat 128 255 hlow (by omega) (by omega)).1
  dsimp only
  split
  case isTrue h =>
    have hbyte : (UInt8.ofNat v).toNat = v := by
      rw [UInt8.toNat_ofNat']
      omega
    have hlt : UInt8.ofNat v < 0x80 := UInt8.lt_iff_toNat_lt.2 (by rw [hbyte]; exact Nat.lt_succ_of_le h)
    rw [List.cons_append, List.nil_append, lossyFrom, if_pos hlt, hbyte, hc]
  case isFalse =>
  split
  case isTrue h =>
    have hrest : List.Forall₂ Within (continuations (.ofNat (v / 64 % 32 + 192))) [.ofNat (v % 64 + 128)] := by
      rw [continuations_ofNat _ (by omega) (by omega), if_pos (by omega)]
      exact .cons (within_last v) .nil
    rw [List.cons_append, lossyFrom_character (hfirst _ (by omega) (by omega)) (by simp) hrest,
      assemble_two (by omega), hc]
  case isFalse =>
  split
  case isTrue h =>
    rw [List.cons_append, lossyFrom_character (hfirst _ (by omega) (by omega)) (by simp)
      (follow_three (by omega) (by omega) (by omega)), assemble_three (by omega), hc]
  case isFalse h =>
    rw [List.cons_append, lossyFrom_character (hfirst _ (by omega) (by omega)) (by simp)
      (follow_four (by omega) (by omega)), assemble_four (by omega), hc]

/-- The UTF-8 of a text is shown as the text. -/
theorem lossy_encode (s : List Char) : lossy (s.flatMap String.utf8EncodeChar) = s := by
  suffices ∀ shown, lossyFrom 0 shown (s.flatMap String.utf8EncodeChar) = shown.reverse ++ s from this []
  induction s with
  | nil =>
    intro shown
    simp [lossyFrom]
  | cons c s ih =>
    intro shown
    rw [List.flatMap_cons, lossyFrom_encodeChar, ih, List.reverse_cons, List.append_assoc]
    rfl

end SqlDump.Text

namespace SqlDump.Storage

/-- A path is shown as it was spelled. -/
@[simp] theorem Path.display_ofString (s : String) : (Path.ofString s).display = s := by
  have hbytes : s.toUTF8.data.toList = s.toList.flatMap String.utf8EncodeChar := by
    rw [String.toUTF8, ← String.utf8Encode_toList]
    exact List.toList_data_toByteArray
  rw [Path.display, Path.ofString, hbytes, Text.lossy_encode, String.ofList_toList]

end SqlDump.Storage
