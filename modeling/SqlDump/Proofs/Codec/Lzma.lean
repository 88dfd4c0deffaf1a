import SqlDump.Codec.Lzma2
import SqlDump.Proofs.Codec.Embedding
/-!
# LZMA data in longer data

A decoder that succeeds does the same when its data is replaced by longer data that starts with it.
-/

namespace SqlDump.Codec

namespace Lzma

/-- The second decoder stands where the first one does, in other data. -/
def SameBut (data whole : ByteArray) (d d' : Decoder) : Prop :=
  d.data = data ∧ d' = { d with data := whole }

/-- A decoder on the data is followed by the same one on the longer data. -/
def DecodesAlike {α : Type} (data whole : ByteArray) (m : Decode α) : Prop :=
  TransfersOn (SameBut data whole) m m

variable {data whole : ByteArray}

theorem modify_alike {f : Decoder → Decoder}
    (hf : ∀ d, (f d).data = d.data ∧ f { d with data := whole } = { f d with data := whole }) :
    DecodesAlike data whole (modify f) := by
  refine .modify ?_
  rintro d _ ⟨rfl, rfl⟩
  exact hf d

section

variable (h : Embeds data whole 0)
include h

theorem nextByte_alike : DecodesAlike data whole nextByte := by
  rintro d _ ⟨rfl, rfl⟩
  unfold nextByte
  dsimp only
  -- behind the end of the data there is an error, so that the longer data is never asked there
  cases hbyte : d.data[d.place]? with
  | none => exact .error _
  | some byte =>
    rw [h.getElem?_eq_some hbyte]
    exact .ite .rfl (fun _ => .pure ⟨rfl, rfl, rfl⟩) fun _ => .error _

theorem normalize_alike : DecodesAlike data whole normalize := by
  refine .getBind ?_
  rintro d _ ⟨rfl, rfl⟩
  exact .ite ((nextByte_alike h).bind fun _ => modify_alike fun _ => ⟨rfl, rfl⟩) (.pure ())

theorem startRange_alike : DecodesAlike data whole startRange := by
  refine (nextByte_alike h).bind fun _ => .guard ?_
  refine (nextByte_alike h).bind fun _ => (nextByte_alike h).bind fun _ => ?_
  refine (nextByte_alike h).bind fun _ => (nextByte_alike h).bind fun _ => ?_
  exact modify_alike fun _ => ⟨rfl, rfl⟩

theorem bit_alike (index : Nat) : DecodesAlike data whole (bit index) := by
  refine (normalize_alike h).bind fun _ => .modifyGet ?_
  rintro d _ ⟨rfl, rfl⟩
  dsimp only
  split <;> exact ⟨rfl, rfl, rfl⟩

theorem directBits_alike (count : Nat) : ∀ front, DecodesAlike data whole (directBits count front) := by
  induction count with
  | zero => exact fun front => .pure front
  | succ count ih =>
    intro front
    refine (normalize_alike h).bind fun _ => TransfersOn.bind ?_ fun _ => ih _
    refine .modifyGet ?_
    rintro d _ ⟨rfl, rfl⟩
    dsimp only
    split <;> exact ⟨rfl, rfl, rfl⟩

theorem tree_alike (start count : Nat) : ∀ node, DecodesAlike data whole (tree start count node) := by
  induction count with
  | zero => exact fun node => .pure node
  | succ count ih => exact fun _ => (bit_alike h _).bind fun _ => ih _

theorem treeBits_alike (start count : Nat) : DecodesAlike data whole (treeBits start count) :=
  (tree_alike h start count 1).bind fun _ => .pure _

theorem reverseTree_alike (start count : Nat) : ∀ node,
    DecodesAlike data whole (reverseTree start count node) := by
  induction count with
  | zero => exact fun _ => .pure 0
  | succ count ih => exact fun _ => (bit_alike h _).bind fun _ => (ih _).bind fun _ => .pure _

theorem matchedLiteral_alike (start count : Nat) : ∀ node matched offset,
    DecodesAlike data whole (matchedLiteral start count node matched offset) := by
  induction count with
  | zero => exact fun node _ _ => .pure node
  | succ count ih => exact fun _ _ _ => (bit_alike h _).bind fun _ => ih _ _ _

theorem literal_alike : DecodesAlike data whole literal := by
  refine .getBind ?_
  rintro d _ ⟨rfl, rfl⟩
  refine .ite ((tree_alike h _ _ _).bind fun _ => modify_alike ?_)
    ((matchedLiteral_alike h _ _ _ _ _).bind fun _ => modify_alike ?_)
  · exact fun _ => ⟨rfl, rfl⟩
  · exact fun _ => ⟨rfl, rfl⟩

theorem readLength_alike (start position : Nat) :
    DecodesAlike data whole (readLength start position) := by
  have hbits (start count base : Nat) :
      DecodesAlike data whole (do return base + (← treeBits start count)) :=
    (treeBits_alike h start count).bind fun _ => .pure _
  refine (bit_alike h _).bind fun _ => .ite (hbits _ _ _) ?_
  exact (bit_alike h _).bind fun _ => .ite (hbits _ _ _) (hbits _ _ _)

theorem readDistance_alike (length : Nat) : DecodesAlike data whole (readDistance length) := by
  refine (treeBits_alike h _ _).bind fun slot => .ite (.pure slot) (.ite ?_ ?_)
  · exact (reverseTree_alike h _ _ _).bind fun _ => .pure _
  · exact (directBits_alike h _ _).bind fun _ => (reverseTree_alike h _ _ _).bind fun _ => .pure _

theorem readAge_alike (state : Nat) : DecodesAlike data whole (readAge state) := by
  refine (bit_alike h _).bind fun _ => .ite (.pure 1) ?_
  exact (bit_alike h _).bind fun _ => .ite (.pure 2) (.pure 3)

theorem readNewMatch_alike (state position : Nat) :
    DecodesAlike data whole (readNewMatch state position) := by
  refine (readLength_alike h _ _).bind fun length => (readDistance_alike h length).bind fun _ => ?_
  refine .getBind ?_
  rintro d _ ⟨rfl, rfl⟩
  refine .guard (TransfersOn.bind (modify_alike ?_) fun _ => .pure length)
  exact fun _ => ⟨rfl, rfl⟩

theorem readOldMatch_alike (state position age : Nat) :
    DecodesAlike data whole (readOldMatch state position age) := by
  refine (readLength_alike h _ _).bind fun length =>
    TransfersOn.bind (modify_alike ?_) fun _ => .pure length
  exact fun _ => ⟨rfl, rfl⟩

theorem readMatch_alike (state position : Nat) :
    DecodesAlike data whole (readMatch state position) := by
  refine (bit_alike h _).bind fun _ => .ite (readNewMatch_alike h _ _) (.getBind ?_)
  rintro d _ ⟨rfl, rfl⟩
  refine .ite (.error _) ((bit_alike h _).bind fun _ => .ite ?_ ?_)
  · exact (readAge_alike h _).bind fun _ => readOldMatch_alike h _ _ _
  · refine (bit_alike h _).bind fun _ => .ite (readOldMatch_alike h _ _ _) ?_
    refine TransfersOn.bind (modify_alike ?_) fun _ => .pure 1
    exact fun _ => ⟨rfl, rfl⟩

theorem readStep_alike (size : Nat) : DecodesAlike data whole (readStep size) := by
  refine .getBind ?_
  rintro d _ ⟨rfl, rfl⟩
  refine (bit_alike h _).bind fun _ => .ite (literal_alike h) ?_
  refine (readMatch_alike h _ _).bind fun _ => .guard (modify_alike ?_)
  exact fun _ => ⟨rfl, rfl⟩

theorem readTo_alike (size steps : Nat) : DecodesAlike data whole (readTo size steps) := by
  induction steps with
  | zero => exact .error _
  | succ steps ih =>
    refine .getBind ?_
    rintro d _ ⟨rfl, rfl⟩
    refine .ite ?_ ((readStep_alike h size).bind fun _ => ih)
    refine (normalize_alike h).bind fun _ => .getBind ?_
    rintro d' _ ⟨-, rfl⟩
    exact .ite (.error _) (.pure ())

end

end Lzma

/-! ## Chunks -/

namespace Lzma2

open Lzma

/-- The second state is the first one in other data. -/
def SameBut (data whole : ByteArray) (s s' : State) : Prop :=
  s.decoder.data = data ∧ s' = { s with decoder := { s.decoder with data := whole } }

variable {data whole : ByteArray} (h : Embeds data whole 0)
include h

theorem byteAt_transfers (i : Nat) :
    Transfers (fun a b => a = b ∧ i < data.size) (byteAt data i) (byteAt whole i) :=
  h.byte_transfers _ i

theorem copyChunk_transfers {s s' : State} (hs : SameBut data whole s s') (size : Nat) :
    Transfers (SameBut data whole) (copyChunk s size) (copyChunk s' size) := by
  obtain ⟨rfl, rfl⟩ := hs
  refine .guard (fun hfits hlt => hfits (Nat.lt_of_le_of_lt h.size_le_size hlt)) fun hfits => ?_
  have hextract := h.extract_eq s.decoder.place (Nat.le_of_not_lt hfits)
  refine .pure ⟨rfl, ?_⟩
  simp only [hextract]

theorem takeProperties_transfers {s s' : State} (hs : SameBut data whole s s') (control : Nat) :
    Transfers (SameBut data whole) (takeProperties control s) (takeProperties control s') := by
  obtain ⟨rfl, rfl⟩ := hs
  refine .ite .rfl (fun _ => ?_) fun _ => .ite .rfl (fun _ => .pure ⟨rfl, rfl⟩) fun _ => .pure ⟨rfl, rfl⟩
  refine (byteAt_transfers h _).bindAnd fun _ byte => ?_
  cases Properties.ofByte? byte with
  | none => exact .error _
  | some p => exact .pure ⟨rfl, rfl⟩

theorem lzmaChunk_transfers {s s' : State} (hs : SameBut data whole s s') (size compressed : Nat) :
    Transfers (SameBut data whole) (lzmaChunk s size compressed) (lzmaChunk s' size compressed) := by
  obtain ⟨rfl, rfl⟩ := hs
  -- the end of the chunk is set in advance and does not change with the data
  have hreader : DecodesAlike s.decoder.data whole (do
      modify fun d => { d with stop := s.decoder.place + compressed }
      startRange
      readTo ((← get).out.size + size) (size + 1)) := by
    refine TransfersOn.bind (modify_alike fun _ => ⟨rfl, rfl⟩) fun _ => ?_
    refine (startRange_alike h).bind fun _ => .getBind ?_
    rintro d _ ⟨-, rfl⟩
    exact readTo_alike h _ _
  refine (hreader s.decoder _ ⟨rfl, rfl⟩).bind ?_
  rintro ⟨⟨⟩, d⟩ ⟨⟨⟩, _⟩ ⟨-, hdata, rfl⟩
  exact .guard id fun _ => .pure ⟨hdata, rfl⟩

theorem readChunks_transfers {steps steps' : Nat} (hsteps : steps ≤ steps') : ∀ s s',
    SameBut data whole s s' →
    Transfers (Lzma.SameBut data whole) (readChunks steps s) (readChunks steps' s') := by
  induction steps generalizing steps' with
  | zero => exact fun _ _ _ => .error _
  | succ steps ih =>
    rintro s _ ⟨rfl, rfl⟩
    obtain ⟨steps', rfl⟩ := Nat.exists_eq_add_of_le' hsteps
    have ih := ih (Nat.le_add_left steps steps')
    refine (byteAt_transfers h _).bindAnd fun _ control => ?_
    refine .ite .rfl (fun _ => .pure ⟨rfl, rfl⟩) fun _ => ?_
    refine .guard id fun _ => .guard id fun _ => .guard id fun _ => ?_
    refine (byteAt_transfers h _).bindAnd fun _ size2 => ?_
    refine (byteAt_transfers h _).bindAnd fun _ size1 => ?_
    refine .ite .rfl (fun _ => ?copied) fun _ => ?compressed
    case copied =>
      refine Transfers.bind (copyChunk_transfers h ?_ _) ih
      exact ⟨rfl, rfl⟩
    case compressed =>
      refine (byteAt_transfers h _).bindAnd fun _ compressed2 => ?_
      refine (byteAt_transfers h _).bindAnd fun _ compressed1 => ?_
      refine Transfers.bind (takeProperties_transfers h ?_ control) fun s s' hs => ?_
      · exact ⟨rfl, rfl⟩
      · exact (lzmaChunk_transfers h hs _ _).bind ih

theorem decode_transfers (start dictionarySize : Nat) :
    Transfers Eq (decode data start dictionarySize) (decode whole start dictionarySize) := by
  have hsteps : data.size + 1 ≤ whole.size + 1 := by
    have := h.size_le_size
    omega
  refine (readChunks_transfers h hsteps _ _ ⟨rfl, rfl⟩).bind ?_
  rintro d _ ⟨-, rfl⟩
  exact .pure rfl

end Lzma2

end SqlDump.Codec
