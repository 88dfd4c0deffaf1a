import SqlDump.Codec.Bits
import SqlDump.Codec.Crc32
import SqlDump.Proofs.Codec.Transfer
/-!
# Data within longer data

What a decoder reads of some data it also reads where that data stands in longer data.
-/

namespace SqlDump.Codec

/-- The bytes of `data` stand in `whole` from the place `k` on. -/
structure Embeds (data whole : ByteArray) (k : Nat) : Prop where
  size_le : k + data.size ≤ whole.size
  getElem?_add : ∀ i < data.size, whole[k + i]? = data[i]?

namespace Embeds

theorem append_right (x y : ByteArray) : Embeds x (x ++ y) 0 where
  size_le := by
    rw [ByteArray.size_append]
    omega
  getElem?_add i hi := by
    have hi' : i < (x ++ y).size := by
      rw [ByteArray.size_append]
      omega
    rw [Nat.zero_add, getElem?_pos x i hi, getElem?_pos (x ++ y) i hi',
      ByteArray.getElem_append_left hi]

theorem append_left (x y : ByteArray) : Embeds y (x ++ y) x.size where
  size_le := Nat.le_of_eq ByteArray.size_append.symm
  getElem?_add i hi := by
    have hi' : x.size + i < (x ++ y).size := by
      rw [ByteArray.size_append]
      omega
    rw [getElem?_pos y i hi, getElem?_pos (x ++ y) (x.size + i) hi',
      ByteArray.getElem_append_right (Nat.le_add_right _ _)]
    simp only [Nat.add_sub_cancel_left]

variable {data whole : ByteArray} {k : Nat}

theorem getElem?_some (h : Embeds data whole k) {i : Nat} {byte : UInt8} (hi : data[i]? = some byte) :
    whole[k + i]? = some byte := by
  obtain ⟨hlt, -⟩ := getElem?_eq_some_iff.1 hi
  rw [h.getElem?_add i hlt, hi]

theorem littleEndian_add (h : Embeds data whole k) {n : Nat} :
    ∀ {start : Nat}, start + n ≤ data.size →
      littleEndian whole (k + start) n = littleEndian data start n := by
  induction n with
  | zero => exact fun _ => rfl
  | succ n ih =>
    intro start hstart
    unfold littleEndian
    rw [h.getElem?_add start (by omega), Nat.add_assoc, ih (by omega)]

theorem extract_add (h : Embeds data whole k) (start : Nat) {stop : Nat} (hstop : stop ≤ data.size) :
    whole.extract (k + start) (k + stop) = data.extract start stop := by
  have hle := h.size_le
  apply ByteArray.ext_getElem
  · rw [ByteArray.size_extract, ByteArray.size_extract]
    omega
  · intro i hi hi'
    rw [ByteArray.size_extract] at hi hi'
    have hsame := h.getElem?_add (start + i) (by omega)
    rw [← Nat.add_assoc, getElem?_pos whole _ (by omega), getElem?_pos data _ (by omega)] at hsame
    rw [ByteArray.getElem_extract, ByteArray.getElem_extract]
    exact Option.some.inj hsame

end Embeds

/-! ## Longer data that starts with the data -/

namespace Embeds

variable {data whole : ByteArray} (h : Embeds data whole 0)
include h

theorem size_le_size : data.size ≤ whole.size := by
  have := h.size_le
  omega

theorem getElem?_eq {i : Nat} (hi : i < data.size) : whole[i]? = data[i]? := by
  have := h.getElem?_add i hi
  rwa [Nat.zero_add] at this

theorem getElem?_eq_some {i : Nat} {byte : UInt8} (hi : data[i]? = some byte) :
    whole[i]? = some byte := by
  have := h.getElem?_some hi
  rwa [Nat.zero_add] at this

/-- A byte that must exist is read alike, and it stands in the data. -/
theorem byte_transfers {ε : Type} (e : ε) (i : Nat) :
    Transfers (fun a b => a = b ∧ i < data.size)
      (match data[i]? with | some byte => Except.ok byte.toNat | none => .error e)
      (match whole[i]? with | some byte => Except.ok byte.toNat | none => .error e) := by
  cases hbyte : data[i]? with
  | none => exact .error e
  | some byte =>
    rw [h.getElem?_eq_some hbyte]
    exact .pure ⟨rfl, (getElem?_eq_some_iff.1 hbyte).1⟩

theorem littleEndian_eq {start n : Nat} (hn : start + n ≤ data.size) :
    littleEndian whole start n = littleEndian data start n := by
  have := h.littleEndian_add hn
  rwa [Nat.zero_add] at this

theorem extract_eq (start : Nat) {stop : Nat} (hstop : stop ≤ data.size) :
    whole.extract start stop = data.extract start stop := by
  have := h.extract_add start hstop
  rwa [Nat.zero_add, Nat.zero_add] at this

theorem foldlM_loop_eq {β : Type} {f : β → UInt8 → β} {stop : Nat} (hd : stop ≤ data.size)
    (hw : stop ≤ whole.size) (i : Nat) : ∀ (j : Nat) (b : β),
    ByteArray.foldlM.loop (m := Id) f whole stop hw i j b =
      ByteArray.foldlM.loop (m := Id) f data stop hd i j b := by
  -- `i` counts the bytes that are left, `j` is the place of the next one
  induction i with
  | zero =>
    intro j b
    unfold ByteArray.foldlM.loop
    split <;> rfl
  | succ i ih =>
    intro j b
    unfold ByteArray.foldlM.loop
    split
    · next hj =>
      have hsame := h.getElem?_eq (by omega : j < data.size)
      rw [getElem?_pos whole j (by omega), getElem?_pos data j (by omega)] at hsame
      rw [Option.some.inj hsame]
      exact ih _ _
    · rfl

theorem crc32_eq {start stop : Nat} (hstop : stop ≤ data.size) :
    crc32 whole start stop = crc32 data start stop := by
  have hw : stop ≤ whole.size := Nat.le_trans hstop h.size_le_size
  unfold crc32 ByteArray.foldl ByteArray.foldlM
  rw [dif_pos hw, dif_pos hstop]
  exact congrArg (· ^^^ 0xFFFFFFFF) (h.foldlM_loop_eq hstop hw (stop - start) start 0xFFFFFFFF)

end Embeds

end SqlDump.Codec
