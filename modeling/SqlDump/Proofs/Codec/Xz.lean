import SqlDump.Codec.Xz
import SqlDump.Proofs.Codec.Lzma
/-!
# Xz files of several streams

Behind the first stream of an xz file nothing may stand.
-/

namespace SqlDump.Codec.Xz

variable {data whole : ByteArray} (h : Embeds data whole 0)
include h

theorem need_transfers (start count : Nat) :
    Transfers (fun _ _ => start + count ≤ data.size) (need data start count) (need whole start count) := by
  refine fun _ hneed => ⟨(), ?_⟩
  unfold need at hneed ⊢
  split at hneed
  · next hle => exact ⟨if_pos (Nat.le_trans hle h.size_le_size), hle⟩
  · cases hneed

theorem byteAt_transfers (i : Nat) :
    Transfers (fun a b => a = b ∧ i < data.size) (byteAt data i) (byteAt whole i) :=
  h.byte_transfers _ i

theorem hasCrc32_eq (start : Nat) {stop place : Nat} (hstop : stop ≤ data.size)
    (hplace : place + 4 ≤ data.size) :
    hasCrc32 whole start stop place = hasCrc32 data start stop place := by
  unfold hasCrc32
  rw [h.littleEndian_eq hplace, h.crc32_eq hstop]

theorem readNumber_transfers {stop stop' : Nat} (hstop : stop ≤ stop') (cut : Error) (groups : Nat) :
    ∀ place index,
    Transfers Eq (readNumber data stop cut groups place index)
      (readNumber whole stop' cut groups place index) := by
  induction groups with
  | zero => exact fun _ _ => .error _
  | succ groups ih =>
    intro place index
    refine .guard (fun hlt hle => hlt (Nat.le_trans hstop hle)) fun _ => ?_
    refine (byteAt_transfers h place).bindAnd fun _ byte => ?_
    refine .ite .rfl (fun _ => .guard id fun _ => .refl _) fun _ => ?_
    exact (ih _ _).bindEq fun _ => .refl _

/-! ## Blocks -/

theorem readFilter_transfers {stop : Nat} (hstop : stop < data.size) (place : Nat) :
    Transfers Eq (readFilter data stop place) (readFilter whole stop place) := by
  refine (readNumber_transfers h (Nat.le_refl stop) _ _ _ _).bindEq fun (id, place) => ?_
  refine .guard (fun hid => hid) fun _ => ?_
  refine (readNumber_transfers h (Nat.le_refl stop) _ _ _ _).bindEq fun (size, place) => ?_
  refine .guard (fun hsize => hsize) fun hsize => ?_
  -- the property is looked at even if it has no bytes; then it is the byte at `stop`
  dsimp only at hsize ⊢
  rw [h.littleEndian_eq (by omega)]
  exact .refl _

theorem readFilters_transfers {stop : Nat} (hstop : stop < data.size) (count : Nat) : ∀ place,
    Transfers Eq (readFilters data stop count place) (readFilters whole stop count place) := by
  induction count with
  | zero => exact fun _ => .refl _
  | succ count ih =>
    exact fun place => (readFilter_transfers h hstop place).bindEq fun _ => (ih _).bindEq fun _ => .refl _

theorem readSize_transfers (stop place : Nat) (present : Bool) :
    Transfers Eq (readSize data stop place present) (readSize whole stop place present) :=
  .ite .rfl (fun _ => (readNumber_transfers h (Nat.le_refl stop) _ _ _ _).bindEq fun _ => .refl _)
    fun _ => .refl _

theorem readBlockHeader_transfers (start : Nat) :
    Transfers Eq (readBlockHeader data start) (readBlockHeader whole start) := by
  refine (byteAt_transfers h start).bindAnd fun _ byte => ?_
  refine (need_transfers h _ _).bind fun _ _ hsize => ?_
  have hcrc := hasCrc32_eq h start (by omega : start + 4 * (byte + 1) - 4 ≤ data.size)
    (by omega : start + 4 * (byte + 1) - 4 + 4 ≤ data.size)
  refine .guard (by rw [hcrc]; exact id) fun _ => ?_
  refine (byteAt_transfers h _).bindAnd fun _ flags => ?_
  refine .guard id fun _ => ?_
  refine (readSize_transfers h _ _ _).bindEq fun (compressed, place) => .guard id fun _ => ?_
  refine (readSize_transfers h _ _ _).bindEq fun (uncompressed, place) => ?_
  refine (readFilters_transfers h (by omega) _ _).bindEq fun (filters, place) => ?_
  dsimp only
  rw [h.extract_eq place (by omega)]
  exact .guard id fun _ => .refl _

theorem runFilters_transfers (place : Nat) : ∀ filters,
    Transfers Eq (runFilters data place filters) (runFilters whole place filters)
  | [] => .error _
  | [.lzma2 size] => by
    unfold runFilters
    cases hdecode : Lzma2.decode data place ((max 4096 size + 15) / 16 * 16) with
    | error e => cases e <;> exact .error _
    | ok result =>
      rw [(Lzma2.decode_transfers h place _).ok hdecode]
      exact .refl _
  | .lzma2 _ :: _ :: _ => .error _
  | .delta _ :: more => (runFilters_transfers place more).bindEq fun _ => .refl _

theorem expectZeros_transfers (count : Nat) : ∀ place,
    Transfers Eq (expectZeros data count place) (expectZeros whole count place) := by
  induction count with
  | zero => exact fun _ => .refl _
  | succ count ih =>
    intro place
    refine (byteAt_transfers h place).bindAnd fun _ byte => ?_
    exact .guard id fun _ => ih _

theorem holds_eq {check : CheckType} {place : Nat} (hplace : place + check.size ≤ data.size)
    (content : ByteArray) : check.holds content whole place = check.holds content data place := by
  obtain ⟨id⟩ := check
  unfold CheckType.holds
  dsimp only
  -- in each case the type of the check gives its size
  split
  · have h4 : place + 4 ≤ data.size := hplace
    rw [h.littleEndian_eq h4]
  · have h8 : place + 8 ≤ data.size := hplace
    rw [h.littleEndian_eq h8]
  · have h32 : place + 32 ≤ data.size := hplace
    rw [h.extract_eq place h32]
  · rfl

theorem readBlock_transfers (check : CheckType) (start : Nat) :
    Transfers Eq (readBlock check data start) (readBlock check whole start) := by
  refine (readBlockHeader_transfers h start).bindEq fun header => ?_
  refine (runFilters_transfers h _ _).bindEq fun (content, place) => ?_
  refine .guard id fun _ => .guard id fun _ => ?_
  refine (expectZeros_transfers h _ _).bindEq fun _ => ?_
  refine (need_transfers h _ _).bind fun _ _ hsize => ?_
  rw [holds_eq h hsize]
  exact .guard id fun _ => .refl _

theorem readBlocks_transfers (check : CheckType) {steps steps' : Nat} (hsteps : steps ≤ steps') :
    ∀ place records out,
    Transfers Eq (readBlocks check data steps place records out)
      (readBlocks check whole steps' place records out) := by
  induction steps generalizing steps' with
  | zero => exact fun _ _ _ => .error _
  | succ steps ih =>
    intro place records out
    obtain ⟨steps', rfl⟩ := Nat.exists_eq_add_of_le' hsteps
    refine (byteAt_transfers h place).bindAnd fun _ byte => ?_
    refine .ite .rfl (fun _ => .refl _) fun _ => ?_
    refine (readBlock_transfers h check place).bindEq fun (content, record, place) => ?_
    exact ih (Nat.le_add_left steps steps') _ _ _

/-! ## Index and footer -/

theorem readRecords_transfers (count : Nat) : ∀ place,
    Transfers Eq (readRecords data count place) (readRecords whole count place) := by
  induction count with
  | zero => exact fun _ => .refl _
  | succ count ih =>
    intro place
    refine (readNumber_transfers h h.size_le_size _ _ _ _).bindEq fun (unpadded, place) => ?_
    refine (readNumber_transfers h h.size_le_size _ _ _ _).bindEq fun (uncompressed, place) => ?_
    exact (ih _).bindEq fun _ => .refl _

theorem readIndex_transfers (records : Array Record) (start : Nat) :
    Transfers Eq (readIndex records data start) (readIndex records whole start) := by
  refine (readNumber_transfers h h.size_le_size _ _ _ _).bindEq fun (count, place) => ?_
  refine .guard id fun _ => ?_
  refine (readRecords_transfers h count place).bindEq fun (stored, place) => ?_
  refine (expectZeros_transfers h _ _).bindEq fun _ => .guard id fun _ => ?_
  refine (need_transfers h _ _).bind fun _ _ hsize => ?_
  rw [hasCrc32_eq h start (by omega) hsize]
  exact .guard id fun _ => .refl _

theorem readFlags_eq {place : Nat} (hplace : place + 2 ≤ data.size) :
    readFlags whole place = readFlags data place := by
  unfold readFlags
  rw [h.littleEndian_eq hplace]

theorem readFooter_transfers (check : CheckType) (indexSize place : Nat) :
    Transfers Eq (readFooter check indexSize data place) (readFooter check indexSize whole place) := by
  refine (need_transfers h _ _).bind fun _ _ hsize => ?_
  rw [h.littleEndian_eq (by omega : place + 10 + 2 ≤ data.size), hasCrc32_eq h _ (by omega) (by omega),
    readFlags_eq h (by omega), h.littleEndian_eq (by omega : place + 4 + 4 ≤ data.size)]
  exact .refl _

/-! ## The stream -/

theorem readStream_transfers : Transfers Eq (readStream data) (readStream whole) := by
  refine (need_transfers h 0 12).bind fun _ _ hsize => ?_
  rw [h.littleEndian_eq (by omega), hasCrc32_eq h 6 (by omega) (by omega), readFlags_eq h (by omega)]
  refine .guard id fun _ => .guard id fun _ => (Transfers.refl _).bindEq fun check => ?_
  have hsteps := Nat.add_le_add_right h.size_le_size 1
  refine (readBlocks_transfers h check hsteps _ _ _).bindEq fun (out, records, indexStart) => ?_
  refine (readIndex_transfers h records indexStart).bindEq fun place => ?_
  exact (readFooter_transfers h check _ place).bindEq fun _ => .refl _

omit h in
theorem size_pos_of_decode {out : ByteArray} (hdecode : decode data = .ok out) : 0 < data.size := by
  obtain ⟨_, hstream, -⟩ := bind_eq_ok.1 hdecode
  obtain ⟨_, hneed, -⟩ := bind_eq_ok.1 hstream
  unfold need at hneed
  split at hneed
  · omega
  · cases hneed

/-- A file that goes on behind its stream is refused. -/
theorem decode_of_lt (hlt : data.size < whole.size) {out : ByteArray} (hdecode : decode data = .ok out) :
    decode whole = .error .trailingData := by
  obtain ⟨⟨out', place⟩, hstream, hend⟩ := bind_eq_ok.1 hdecode
  unfold decode
  rw [(readStream_transfers h).ok hstream]
  dsimp only at hend
  split at hend
  · cases hend
  · next hplace =>
    show (if place ≠ whole.size then _ else _) = _
    rw [if_pos (by omega)]
    rfl

end SqlDump.Codec.Xz
