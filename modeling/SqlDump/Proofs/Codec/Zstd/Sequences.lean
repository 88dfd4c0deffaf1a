import SqlDump.Codec.Zstd.Sequences
import SqlDump.Proofs.Codec.Zstd.Literals
/-!
# Sequences of a Zstandard block within longer data

The output of the frame may stand behind other output. No distance reaches back to that.
-/

namespace SqlDump.Codec.Zstd

theorem append_push (front out : ByteArray) (byte : UInt8) :
    (front ++ out).push byte = front ++ out.push byte := by
  apply ByteArray.ext
  rw [ByteArray.data_push, ByteArray.data_append, ByteArray.data_append, ByteArray.data_push,
    Array.append_push]

theorem getElem?_append_sub (front out : ByteArray) {distance : Nat} (hdistance : distance ≤ out.size) :
    (front ++ out)[(front ++ out).size - distance]? = out[out.size - distance]? := by
  rw [ByteArray.size_append, Nat.add_sub_assoc hdistance]
  by_cases hlt : out.size - distance < out.size
  · exact (Embeds.append_left front out).getElem?_add _ hlt
  · rw [getElem?_neg out _ hlt, getElem?_neg]
    rw [ByteArray.size_append]
    omega

theorem copyBack_append (front : ByteArray) {distance : Nat} (count : Nat) : ∀ {out : ByteArray},
    distance ≤ out.size → copyBack distance count (front ++ out) = front ++ copyBack distance count out := by
  induction count with
  | zero => exact fun _ => rfl
  | succ count ih =>
    intro out hdistance
    unfold copyBack
    rw [getElem?_append_sub front out hdistance, append_push, ih]
    rw [ByteArray.size_push]
    omega

variable {data whole : ByteArray} {k : Nat} (h : Embeds data whole k)
include h

/-! ## Tables -/

theorem readTable?_transfers (limits : CodeLimits) (mode : Nat) (before : Option FseTable)
    {place stop : Nat} (hstop : stop ≤ data.size) :
    TransfersSome (WithEq (Moved k)) (readTable? limits mode before data place stop)
      (readTable? limits mode before whole (k + place) (k + stop)) := by
  unfold readTable?
  split
  · exact .some ⟨rfl, rfl⟩
  · refine .guard (by omega) fun hplace => ?_
    rw [h.getElem?_add place (by omega)]
    refine (TransfersSome.refl _).bind ?_
    rintro code _ rfl
    exact .guard id fun _ => .some ⟨rfl, rfl⟩
  · refine (readDistribution?_transfers h hstop _ _).bind ?_
    rintro ⟨distribution, place⟩ ⟨_, _⟩ ⟨rfl, rfl⟩
    exact .some ⟨rfl, rfl⟩
  · cases before with
    | none => exact .none
    | some table => exact .some ⟨rfl, rfl⟩

theorem readCount_transfers {start stop : Nat} (hstop : stop ≤ data.size) :
    Transfers (WithEq (Moved k)) (readCount data start stop) (readCount whole (k + start) (k + stop)) := by
  refine .guard (by omega) fun hone => ?_
  rw [h.littleEndian_add (by omega : start + 1 ≤ data.size)]
  refine .ite .rfl (fun _ => .pure ⟨rfl, rfl⟩) fun _ => .ite .rfl (fun _ => ?_) fun _ => ?_
  · refine .guard (by omega) fun hthree => .pure ⟨?_, rfl⟩
    rw [Nat.add_assoc k, h.littleEndian_add (by omega : start + 1 + 2 ≤ data.size)]
  · refine .guard (by omega) fun htwo => .pure ⟨?_, rfl⟩
    rw [Nat.add_assoc k, h.littleEndian_add (by omega : start + 1 + 1 ≤ data.size)]

theorem readTables_transfers {start stop : Nat} (hstop : stop ≤ data.size)
    (before : Option SequenceTables) :
    Transfers (WithEq (Moved k)) (readTables data start stop before)
      (readTables whole (k + start) (k + stop) before) := by
  refine .guard (by omega) fun hone => ?_
  rw [h.littleEndian_add (by omega : start + 1 ≤ data.size)]
  refine .guard id fun _ => ?_
  rw [Nat.add_assoc k]
  refine (orCorrupt_transfers (readTable?_transfers h _ _ _ hstop)).bind ?_
  rintro ⟨literalLength, place⟩ ⟨_, _⟩ ⟨rfl, rfl⟩
  refine (orCorrupt_transfers (readTable?_transfers h _ _ _ hstop)).bind ?_
  rintro ⟨distance, place⟩ ⟨_, _⟩ ⟨rfl, rfl⟩
  refine (orCorrupt_transfers (readTable?_transfers h _ _ _ hstop)).bind ?_
  rintro ⟨matchLength, place⟩ ⟨_, _⟩ ⟨rfl, rfl⟩
  exact .pure ⟨rfl, rfl⟩

/-! ## Execution -/

omit h in
/-- The same state with other output in front. -/
structure SameState (data whole : ByteArray) (k : Nat) (front : ByteArray) (s s' : SequenceState) :
    Prop where
  bits : SameBits data whole k s.bits s'.bits
  eq : s' = { s with bits := s'.bits, out := front ++ s.out }

theorem readAdded_transfers (table : Array (Nat × Nat)) (code : Nat) {b b' : BackwardBits}
    (hb : SameBits data whole k b b') :
    TransfersSome (WithEq (SameBits data whole k)) (readAdded table code b) (readAdded table code b') := by
  refine (TransfersSome.refl _).bind ?_
  rintro ⟨base, count⟩ _ rfl
  refine (read?_transfers h hb count).bind ?_
  rintro ⟨added, rest⟩ ⟨_, rest'⟩ ⟨rfl, hrest⟩
  exact .some ⟨rfl, hrest⟩

variable {front : ByteArray}

theorem runSequence_transfers (tables : SequenceTables) (literals : ByteArray) (base : Nat)
    {s s' : SequenceState} (hs : SameState data whole k front s s') :
    TransfersSome (SameState data whole k front) (runSequence tables literals base s)
      (runSequence tables literals (front.size + base) s') := by
  obtain ⟨hbits, heq⟩ := hs
  rw [heq]
  refine (read?_transfers h hbits _).bind ?_
  rintro ⟨distanceAdded, bits⟩ ⟨_, bits'⟩ ⟨rfl, hbits⟩
  refine (readAdded_transfers h _ _ hbits).bind ?_
  rintro ⟨count, bits⟩ ⟨_, bits'⟩ ⟨rfl, hbits⟩
  refine (readAdded_transfers h _ _ hbits).bind ?_
  rintro ⟨literalCount, bits⟩ ⟨_, bits'⟩ ⟨rfl, hbits⟩
  dsimp only
  refine .guard id fun _ => ?_
  rw [ByteArray.append_assoc]
  generalize s.out ++ literals.extract s.literalPlace (s.literalPlace + literalCount) = out
  rw [ByteArray.size_append, Nat.add_sub_add_left]
  refine .guard id fun hdistance => .some ⟨hbits, ?_⟩
  rw [copyBack_append front _ (by omega)]

theorem advance_transfers (tables : SequenceTables) {s s' : SequenceState}
    (hs : SameState data whole k front s s') :
    TransfersSome (SameState data whole k front) (advance tables s) (advance tables s') := by
  obtain ⟨hbits, heq⟩ := hs
  rw [heq]
  refine (next?_transfers h hbits _ _).bind ?_
  rintro ⟨literalState, bits⟩ ⟨_, bits'⟩ ⟨rfl, hbits⟩
  refine (next?_transfers h hbits _ _).bind ?_
  rintro ⟨matchState, bits⟩ ⟨_, bits'⟩ ⟨rfl, hbits⟩
  refine (next?_transfers h hbits _ _).bind ?_
  rintro ⟨distanceState, bits⟩ ⟨_, bits'⟩ ⟨rfl, hbits⟩
  exact .some ⟨hbits, rfl⟩

theorem runSequences_transfers (tables : SequenceTables) (literals : ByteArray) (base : Nat) :
    ∀ (count : Nat) {s s' : SequenceState}, SameState data whole k front s s' →
    TransfersSome (SameState data whole k front) (runSequences tables literals base count s)
      (runSequences tables literals (front.size + base) count s')
  | 0, _, _, hs => .some hs
  | 1, _, _, hs => by
    refine (runSequence_transfers h tables literals base hs).bind fun s s' hs => ?_
    rw [hs.bits.left_eq]
    exact .ite .rfl (fun _ => .some hs) fun _ => .none
  | count + 2, _, _, hs => by
    refine (runSequence_transfers h tables literals base hs).bind fun s s' hs => ?_
    refine (advance_transfers h tables hs).bind fun s s' hs => ?_
    exact runSequences_transfers tables literals base (count + 1) hs

theorem execute_transfers (tables : SequenceTables) (count : Nat) (literals : ByteArray)
    {start stop : Nat} (hstop : stop ≤ data.size) (base : Nat) (recent : Recent) (out : ByteArray) :
    TransfersSome (fun r r' => r' = (front ++ r.1, r.2))
      (execute tables count literals data start stop base recent out)
      (execute tables count literals whole (k + start) (k + stop) (front.size + base) recent
        (front ++ out)) := by
  refine (ofBytes?_transfers h hstop).bind fun bits bits' hbits => ?_
  refine (start?_transfers h hbits _).bind ?_
  rintro ⟨literalState, bits⟩ ⟨_, bits'⟩ ⟨rfl, hbits⟩
  refine (start?_transfers h hbits _).bind ?_
  rintro ⟨distanceState, bits⟩ ⟨_, bits'⟩ ⟨rfl, hbits⟩
  refine (start?_transfers h hbits _).bind ?_
  rintro ⟨matchState, bits⟩ ⟨_, bits'⟩ ⟨rfl, hbits⟩
  refine (runSequences_transfers h tables literals base count ⟨hbits, rfl⟩).bind fun s s' hs => ?_
  rw [hs.eq]
  exact .some (by rw [ByteArray.append_assoc])

end SqlDump.Codec.Zstd
