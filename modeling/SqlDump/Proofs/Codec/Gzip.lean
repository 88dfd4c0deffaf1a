import SqlDump.Codec.Gzip
import SqlDump.Proofs.Codec.Inflate
/-!
# Gzip files of several members

What stands behind the first member of a gzip file is not looked at.
-/

namespace SqlDump.Codec.Gzip

variable {data whole : ByteArray} (h : Embeds data whole 0)
include h

theorem byteAt_transfers (i : Nat) :
    Transfers (fun a b => a = b ∧ i < data.size) (byteAt data i) (byteAt whole i) :=
  h.byte_transfers _ i

theorem skipText_transfers (room : Nat) : ∀ place,
    Transfers Eq (skipText data room place) (skipText whole room place) := by
  induction room with
  | zero =>
    intro place
    refine (byteAt_transfers h place).bindAnd fun _ byte => ?_
    exact .ite .rfl (fun _ => .refl _) fun _ => .error _
  | succ room ih =>
    intro place
    refine (byteAt_transfers h place).bindAnd fun _ byte => ?_
    exact .ite .rfl (fun _ => .refl _) fun _ => ih _

theorem skipExtra_transfers (place : Nat) :
    Transfers Eq (skipExtra data place) (skipExtra whole place) := by
  refine (byteAt_transfers h place).bindAnd fun _ low => ?_
  refine (byteAt_transfers h (place + 1)).bindAnd fun _ high => ?_
  exact (byteAt_transfers h _).bind fun _ _ _ => .refl _

theorem skipCheck_transfers (place : Nat) :
    Transfers Eq (skipCheck data place) (skipCheck whole place) := by
  refine (byteAt_transfers h place).bindAnd fun hplace low => ?_
  refine (byteAt_transfers h (place + 1)).bindAnd fun _ high => ?_
  rw [h.crc32_eq (Nat.le_of_lt hplace)]
  exact .guard id fun _ => .refl _

omit h in
theorem skipPart_transfers {flags bit : Nat} {skip skip' : Nat → Except Error Nat}
    (hskip : ∀ place, Transfers Eq (skip place) (skip' place)) (place : Nat) :
    Transfers Eq (skipPart flags bit skip place) (skipPart flags bit skip' place) :=
  .ite .rfl (fun _ => hskip place) fun _ => .refl _

theorem readHeader_transfers : Transfers Eq (readHeader data) (readHeader whole) := by
  refine (byteAt_transfers h 9).bind fun _ _ hsize => ?_
  rw [h.littleEndian_eq (by omega : 3 + 1 ≤ data.size),
    h.littleEndian_eq (by omega : 0 + 3 ≤ data.size)]
  refine .guard id fun _ => ?_
  refine (skipPart_transfers (skipExtra_transfers h) 10).bindEq fun place => ?_
  refine (skipPart_transfers (skipText_transfers h longestText) place).bindEq fun place => ?_
  refine (skipPart_transfers (skipText_transfers h longestText) place).bindEq fun place => ?_
  exact skipPart_transfers (skipCheck_transfers h) place

/-- A gzip file has the content of the first member, whatever stands behind it. -/
theorem decode_transfers : Transfers Eq (decode data) (decode whole) := by
  refine (readHeader_transfers h).bindEq fun start => ?_
  cases hinflate : Inflate.inflate data start with
  | error e => cases e <;> exact .error _
  | ok result =>
    obtain ⟨out, place⟩ := result
    rw [(Inflate.inflate_transfers h start).ok hinflate]
    refine (byteAt_transfers h (place + 7)).bind fun _ _ hsize => ?_
    rw [h.littleEndian_eq (by omega : place + 4 ≤ data.size),
      h.littleEndian_eq (by omega : place + 4 + 4 ≤ data.size)]
    exact .guard id fun _ => .refl _

end SqlDump.Codec.Gzip
