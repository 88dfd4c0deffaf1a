import SqlDump.Codec.Zstd.Literals
import SqlDump.Proofs.Codec.Zstd.Bits
/-!
# Literals of a Zstandard block within longer data
-/

namespace SqlDump.Codec.Zstd

theorem orCorrupt_transfers {α β : Type} {R : α → β → Prop} {x : Option α} {y : Option β}
    (hxy : TransfersSome R x y) : Transfers R (orCorrupt x) (orCorrupt y) := by
  cases x with
  | none => exact .error _
  | some a =>
    obtain ⟨b, rfl, hab⟩ := hxy a rfl
    exact .pure hab

variable {data whole : ByteArray} {k : Nat} (h : Embeds data whole k)
include h

theorem readWeights_transfers (table : FseTable) (steps : Nat) : ∀ here other b b' weights,
    SameBits data whole k b b' →
    TransfersSome Eq (readWeights table steps here other b weights)
      (readWeights table steps here other b' weights) := by
  induction steps with
  | zero => exact fun _ _ _ _ _ _ => .none
  | succ steps ih =>
    intro here other b b' weights hb
    unfold readWeights
    -- the end of the bits is no failure here: it ends the weights, in the longer data too
    cases hnext : table.next? here b with
    | none =>
      rw [next?_eq_none hb hnext]
      exact .refl _
    | some result =>
      obtain ⟨⟨next, bits'⟩, hnext', rfl, hbits⟩ := next?_transfers h hb table here _ hnext
      rw [hnext']
      exact ih _ _ _ _ _ hbits

theorem readWeightsAt?_transfers {start stop : Nat} (hstop : stop ≤ data.size) :
    TransfersSome (WithEq (Moved k)) (readWeightsAt? data start stop)
      (readWeightsAt? whole (k + start) (k + stop)) := by
  refine TransfersSome.bind (R := Eq) (fun head hhead => ⟨head, h.getElem?_some hhead, rfl⟩) ?_
  rintro head _ rfl
  dsimp only
  simp only [Nat.add_assoc k]
  refine .ite .rfl (fun _ => ?_) fun _ => ?_
  · refine .guard (by omega) fun hlast => ?_
    have hle : start + 1 + head.toNat ≤ data.size := by omega
    refine (readDistribution?_transfers h hle _ _).bind ?_
    rintro ⟨distribution, place⟩ ⟨_, _⟩ ⟨rfl, rfl⟩
    refine (ofBytes?_transfers h hle).bind fun bits bits' hbits => ?_
    refine (start?_transfers h hbits _).bind ?_
    rintro ⟨first, bits⟩ ⟨_, bits'⟩ ⟨rfl, hbits⟩
    refine (start?_transfers h hbits _).bind ?_
    rintro ⟨second, bits⟩ ⟨_, bits'⟩ ⟨rfl, hbits⟩
    refine (readWeights_transfers h _ _ _ _ _ _ _ hbits).bind ?_
    rintro weights _ rfl
    exact .guard id fun _ => .some ⟨rfl, rfl⟩
  · refine .guard (by omega) fun hlast => .some ⟨?_, rfl⟩
    refine Array.map_congr_left fun i hi => ?_
    rw [Array.mem_range] at hi
    rw [h.getElem?_add _ (by omega)]

theorem readSymbols_transfers (code : LiteralCode) (count : Nat) : ∀ b b' out,
    SameBits data whole k b b' →
    TransfersSome (WithEq (SameBits data whole k)) (code.readSymbols count b out)
      (code.readSymbols count b' out) := by
  induction count with
  | zero => exact fun _ _ _ hb => .some ⟨rfl, hb⟩
  | succ count ih =>
    intro b b' out hb
    unfold LiteralCode.readSymbols
    rw [peek_eq h hb]
    refine (TransfersSome.refl _).bind ?_
    rintro ⟨symbol, length⟩ _ rfl
    exact (skip?_transfers hb length).bind fun rest rest' hrest => ih _ _ _ hrest

theorem readStream_transfers (code : LiteralCode) {start stop : Nat} (hstop : stop ≤ data.size)
    (count : Nat) (out : ByteArray) :
    TransfersSome Eq (code.readStream data start stop count out)
      (code.readStream whole (k + start) (k + stop) count out) := by
  refine (ofBytes?_transfers h hstop).bind fun bits bits' hbits => ?_
  refine (readSymbols_transfers h code count _ _ out hbits).bind ?_
  rintro ⟨out, bits⟩ ⟨_, bits'⟩ ⟨rfl, hbits⟩
  dsimp only
  rw [hbits.left_eq]
  exact .refl _

theorem readFourStreams_transfers (code : LiteralCode) {start stop : Nat} (hstop : stop ≤ data.size)
    (count : Nat) :
    TransfersSome Eq (code.readFourStreams data start stop count)
      (code.readFourStreams whole (k + start) (k + stop) count) := by
  unfold LiteralCode.readFourStreams
  simp only [Nat.add_assoc k]
  refine .guard (by omega) fun hroom => ?_
  rw [h.littleEndian_add (by omega : start + 2 ≤ data.size),
    h.littleEndian_add (by omega : start + 2 + 2 ≤ data.size),
    h.littleEndian_add (by omega : start + 4 + 2 ≤ data.size)]
  refine .guard (by omega) fun hfourth => ?_
  refine (readStream_transfers h code (by omega) _ _).bind ?_
  rintro out _ rfl
  refine (readStream_transfers h code (by omega) _ _).bind ?_
  rintro out _ rfl
  refine (readStream_transfers h code (by omega) _ _).bind ?_
  rintro out _ rfl
  exact readStream_transfers h code hstop _ _

/-! ## Literals -/

/-- The same literals, with the byte behind them in the longer data. -/
def SameLiterals (k : Nat) (l l' : Literals) : Prop := l' = { l with next := k + l.next }

theorem plainHeader_add {start : Nat} (hstart : start + 1 ≤ data.size)
    (hnext : (plainHeader data start).2 ≤ data.size) :
    plainHeader whole (k + start) = ((plainHeader data start).1, k + (plainHeader data start).2) := by
  revert hnext
  unfold plainHeader
  dsimp only
  rw [h.littleEndian_add hstart]
  split
  · exact fun hnext => by rw [h.littleEndian_add hnext, Nat.add_assoc]
  · exact fun hnext => by rw [h.littleEndian_add hnext, Nat.add_assoc]
  · exact fun _ => by rw [Nat.add_assoc]

theorem readPlainLiterals_transfers {start stop : Nat} (hstart : start + 1 ≤ stop)
    (hstop : stop ≤ data.size) (most : Nat) (repeated : Bool) (code : Option LiteralCode) :
    Transfers (SameLiterals k) (readPlainLiterals data start stop most repeated code)
      (readPlainLiterals whole (k + start) (k + stop) most repeated code) := by
  unfold readPlainLiterals
  rcases hheader : plainHeader data start with ⟨size, place⟩
  -- a header of three bytes may reach over the end of the data, but then it is refused
  by_cases hplace : place ≤ data.size
  · rw [plainHeader_add h (by omega) (by rw [hheader]; exact hplace), hheader]
    dsimp only
    rw [Nat.add_assoc k place]
    refine .guard (by omega) fun hfits => .pure ?_
    have hle := Nat.le_trans (Nat.le_of_not_lt (not_or.1 hfits).2) hstop
    cases repeated with
    | false =>
      have hbytes : place + size ≤ data.size := hle
      rw [Nat.add_assoc, h.extract_add place hbytes]
      rfl
    | true =>
      have hbyte : place + 1 ≤ data.size := hle
      rw [h.getElem?_add place hbyte]
      rfl
  · dsimp only
    rw [if_pos (by omega)]
    exact .error _

theorem codedHeader_add {start : Nat} (hstart : start + 5 ≤ data.size) :
    codedHeader whole (k + start) =
      { codedHeader data start with next := k + (codedHeader data start).next } := by
  unfold codedHeader
  rw [h.littleEndian_add hstart, h.littleEndian_add (by omega : start + 1 ≤ data.size)]
  simp only [Nat.add_assoc]

theorem readCode_transfers {place last : Nat} (hlast : last ≤ data.size) (code : Option LiteralCode) :
    Transfers (WithEq (Moved k)) (readCode data place last code)
      (readCode whole (k + place) (k + last) code) := by
  cases code with
  | some code => exact .pure ⟨rfl, rfl⟩
  | none =>
    refine (orCorrupt_transfers (readWeightsAt?_transfers h hlast)).bind ?_
    rintro ⟨weights, place⟩ ⟨_, _⟩ ⟨rfl, rfl⟩
    exact (Transfers.refl _).bindEq fun code => .pure ⟨rfl, rfl⟩

theorem readCodedLiterals_transfers {start stop : Nat} (hstop : stop ≤ data.size) (most : Nat)
    (code : Option LiteralCode) :
    Transfers (SameLiterals k) (readCodedLiterals data start stop most code)
      (readCodedLiterals whole (k + start) (k + stop) most code) := by
  refine .guard (by omega) fun hroom => ?_
  rw [codedHeader_add h (by omega)]
  dsimp only
  rw [Nat.add_assoc]
  refine .guard id fun _ => .guard id fun _ => .guard (by omega) fun hlast => ?_
  refine (readCode_transfers h (by omega) code).bind ?_
  rintro ⟨code, place⟩ ⟨_, _⟩ ⟨rfl, rfl⟩
  refine (orCorrupt_transfers ?_).bindEq fun bytes => .pure rfl
  refine .ite .rfl (fun _ => ?_) fun _ => ?_
  · exact readStream_transfers h code (by omega) _ _
  · exact readFourStreams_transfers h code (by omega) _

theorem readLiterals_transfers {start stop : Nat} (hstop : stop ≤ data.size) (most : Nat)
    (code : Option LiteralCode) :
    Transfers (SameLiterals k) (readLiterals data start stop most code)
      (readLiterals whole (k + start) (k + stop) most code) := by
  refine .guard (by omega) fun hroom => ?_
  rw [h.littleEndian_add (by omega : start + 1 ≤ data.size)]
  dsimp only
  split
  · exact readPlainLiterals_transfers h (by omega) hstop most false code
  · exact readPlainLiterals_transfers h (by omega) hstop most true code
  · exact readCodedLiterals_transfers h hstop most none
  · exact .guard id fun _ => readCodedLiterals_transfers h hstop most code

end SqlDump.Codec.Zstd
