import SqlDump.Codec.Zstd.Fse
import SqlDump.Proofs.Codec.Embedding
/-!
# Bits and tables of Zstandard streams within longer data

Nothing behind the end of a stream is looked at, so that a stream within longer data has the same bits.
-/

namespace SqlDump.Codec.Zstd

/-- A place of the longer data, and the one of the data that it stands for. -/
def Moved (k : Nat) (place place' : Nat) : Prop := place' = k + place

/-- The same stream in the data and in the longer data. -/
structure SameBits (data whole : ByteArray) (k : Nat) (b b' : BackwardBits) : Prop where
  data_eq : b.data = data
  fits : 8 * b.start + b.left ≤ 8 * data.size
  eq : b' = ⟨whole, k + b.start, b.left⟩

variable {data whole : ByteArray} {k : Nat}

section

variable {b b' : BackwardBits} (hb : SameBits data whole k b b')
include hb

theorem SameBits.left_eq : b'.left = b.left := by rw [hb.eq]

theorem skip?_transfers (count : Nat) :
    TransfersSome (SameBits data whole k) (b.skip? count) (b'.skip? count) := by
  obtain ⟨hdata, hfits, rfl⟩ := hb
  refine .ite .rfl (fun hcount => .some ⟨hdata, ?_, rfl⟩) fun _ => .none
  dsimp only
  omega

theorem skip?_eq_none {count : Nat} (hnone : b.skip? count = none) : b'.skip? count = none := by
  unfold BackwardBits.skip? at hnone ⊢
  rw [hb.left_eq]
  split at hnone
  · cases hnone
  · next hcount => exact if_neg hcount

theorem next?_eq_none {table : FseTable} {i : Nat} (hnone : table.next? i b = none) :
    table.next? i b' = none := by
  unfold FseTable.next? BackwardBits.read? at hnone ⊢
  dsimp only at hnone ⊢
  rw [Option.map_eq_none_iff, Option.map_eq_none_iff] at hnone ⊢
  exact skip?_eq_none hb hnone

end

variable (h : Embeds data whole k)
include h

theorem bitsBelow_add {start : Nat} (count : Nat) : ∀ {place : Nat} (front : Nat),
    8 * start + place ≤ 8 * data.size →
    bitsBelow whole (k + start) count place front = bitsBelow data start count place front := by
  induction count with
  | zero => exact fun _ _ => rfl
  | succ count ih =>
    intro place front hfits
    cases place with
    | zero => exact ih _ hfits
    | succ place =>
      unfold bitsBelow
      rw [Nat.add_assoc, h.getElem?_add _ (by omega), ih _ (by omega)]

theorem ofBytes?_transfers {start stop : Nat} (hstop : stop ≤ data.size) :
    TransfersSome (SameBits data whole k) (BackwardBits.ofBytes? data start stop)
      (BackwardBits.ofBytes? whole (k + start) (k + stop)) := by
  unfold BackwardBits.ofBytes?
  by_cases hlt : start < stop
  · rw [if_pos hlt, if_pos (Nat.add_lt_add_left hlt k), Nat.add_sub_assoc (by omega : 1 ≤ stop),
      h.getElem?_add _ (by omega)]
    refine .ite .rfl (fun _ => .none) fun hlast => .some ⟨rfl, ?_, ?_⟩
    · -- the end mark is one of the eight bits of the last byte
      have hbyte : (data[stop - 1]?.getD 0).toNat < 2 ^ 8 := UInt8.toNat_lt _
      have hlog := (Nat.log2_lt hlast).2 hbyte
      dsimp only
      omega
    · rw [Nat.add_sub_add_left]
  · rw [if_neg hlt, if_pos rfl]
    exact .none

theorem forwardBits_add {stop : Nat} (hstop : stop ≤ data.size) (bitPlace count : Nat) :
    forwardBits whole (k + stop) (8 * k + bitPlace) count = forwardBits data stop bitPlace count := by
  have hbyte (i : Nat) : (if (8 * k + bitPlace) / 8 + i < k + stop then
      (whole[(8 * k + bitPlace) / 8 + i]?.getD 0).toNat else 0) =
      if bitPlace / 8 + i < stop then (data[bitPlace / 8 + i]?.getD 0).toNat else 0 := by
    rw [Nat.mul_add_div (by omega), Nat.add_assoc]
    by_cases hi : bitPlace / 8 + i < stop
    · rw [if_pos hi, if_pos (Nat.add_lt_add_left hi k), h.getElem?_add _ (by omega)]
    · rw [if_neg hi, if_neg (by omega)]
  unfold forwardBits
  simp only [hbyte, Nat.mul_add_mod]

theorem readZeros_add {stop : Nat} (hstop : stop ≤ data.size) (steps : Nat) : ∀ place,
    readZeros whole (k + stop) steps (8 * k + place) =
      ((readZeros data stop steps place).1, 8 * k + (readZeros data stop steps place).2) := by
  induction steps with
  | zero => exact fun _ => rfl
  | succ steps ih =>
    intro place
    unfold readZeros
    rw [forwardBits_add h hstop, Nat.add_assoc]
    dsimp only
    split
    · rw [ih]
    · rfl

theorem readShares_transfers {stop : Nat} (hstop : stop ≤ data.size) (limit steps : Nat) :
    ∀ place remaining afterZero shares,
    TransfersSome (WithEq (Moved (8 * k)))
      (readShares data stop limit steps place remaining afterZero shares)
      (readShares whole (k + stop) limit steps (8 * k + place) remaining afterZero shares) := by
  induction steps with
  | zero => exact fun _ _ _ _ => .none
  | succ steps ih =>
    intro place remaining afterZero shares
    refine .ite .rfl (fun _ => .some ⟨rfl, rfl⟩) fun _ => ?_
    have hzeros : (if afterZero then readZeros whole (k + stop) (limit + 1) (8 * k + place)
        else (0, 8 * k + place)) =
        ((if afterZero then readZeros data stop (limit + 1) place else (0, place)).1,
          8 * k + (if afterZero then readZeros data stop (limit + 1) place else (0, place)).2) := by
      cases afterZero with
      | false => rfl
      | true => exact readZeros_add h hstop _ _
    rw [hzeros]
    generalize (if afterZero then readZeros data stop (limit + 1) place else (0, place)) = result
    obtain ⟨zeros, place⟩ := result
    dsimp only
    refine .ite .rfl (fun _ => .none) fun _ => ?_
    rw [forwardBits_add h hstop, forwardBits_add h hstop, Nat.add_assoc]
    exact ih _ _ _ _

theorem readDistribution?_transfers {start stop : Nat} (hstop : stop ≤ data.size)
    (maxSymbol maxLog : Nat) :
    TransfersSome (WithEq (Moved k)) (readDistribution? data start stop maxSymbol maxLog)
      (readDistribution? whole (k + start) (k + stop) maxSymbol maxLog) := by
  unfold readDistribution?
  rw [Nat.mul_add, forwardBits_add h hstop, Nat.add_assoc]
  refine .guard id fun _ => (readShares_transfers h hstop _ _ _ _ _ _).bind ?_
  rintro ⟨shares, place⟩ ⟨_, _⟩ ⟨rfl, rfl⟩
  dsimp only
  rw [Nat.add_assoc, Nat.mul_add_div (by omega)]
  exact .ite (Nat.add_le_add_iff_left).symm (fun _ => .some ⟨rfl, rfl⟩) fun _ => .none

variable {b b' : BackwardBits} (hb : SameBits data whole k b b')
include hb

theorem peek_eq (count : Nat) : b'.peek count = b.peek count := by
  obtain ⟨rfl, hfits, rfl⟩ := hb
  exact bitsBelow_add h count 0 hfits

theorem read?_transfers (count : Nat) :
    TransfersSome (WithEq (SameBits data whole k)) (b.read? count) (b'.read? count) := by
  unfold BackwardBits.read?
  rw [Option.map_eq_bind, Option.map_eq_bind]
  refine (skip?_transfers hb count).bind fun rest rest' hrest => .some ⟨?_, hrest⟩
  exact (peek_eq h hb count).symm

theorem start?_transfers (table : FseTable) :
    TransfersSome (WithEq (SameBits data whole k)) (table.start? b) (table.start? b') :=
  read?_transfers h hb _

theorem next?_transfers (table : FseTable) (i : Nat) :
    TransfersSome (WithEq (SameBits data whole k)) (table.next? i b) (table.next? i b') := by
  unfold FseTable.next?
  dsimp only
  rw [Option.map_eq_bind, Option.map_eq_bind]
  refine (read?_transfers h hb _).bind ?_
  rintro ⟨n, rest⟩ ⟨_, rest'⟩ ⟨rfl, hrest⟩
  exact .some ⟨rfl, hrest⟩

end SqlDump.Codec.Zstd
