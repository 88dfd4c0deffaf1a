import SqlDump.Codec.Inflate
import SqlDump.Proofs.Codec.Bits
/-!
# Deflated data in longer data

Blocks that can be inflated are inflated the same when more data stands behind them. The steps that
are allowed grow with the data, and more steps change no result.
-/

namespace SqlDump.Codec.Inflate

variable {data whole : ByteArray}

theorem codeOfLengths_alike (lengths : Array Nat) :
    ReadsAlike data whole (codeOfLengths lengths) (codeOfLengths lengths) := by
  unfold codeOfLengths
  exact .guard (.pure _)

variable (h : Embeds data whole 0)
include h

theorem readSymbol_alike (code : PrefixCode) :
    ReadsAlike data whole (readSymbol code) (readSymbol code) :=
  PrefixCode.read_alike (lowBit_alike h _)

theorem readExtra_alike (table : Array (Nat × Nat)) (symbol : Nat) :
    ReadsAlike data whole (readExtra table symbol) (readExtra table symbol) := by
  unfold readExtra
  split
  · exact (lowBits_alike h _ _).bind fun _ => .pure _
  · exact .error _

theorem readSymbols_alike {literals distances : PrefixCode} {steps steps' : Nat}
    (hsteps : steps ≤ steps') : ∀ out,
    ReadsAlike data whole (readSymbols literals distances steps out)
      (readSymbols literals distances steps' out) := by
  -- more data allows more steps, so both counts go down together, one from the other on
  induction steps generalizing steps' with
  | zero => exact fun _ => .error _
  | succ steps ih =>
    intro out
    obtain ⟨steps', rfl⟩ := Nat.exists_eq_add_of_le' hsteps
    have ih := ih (Nat.le_add_left steps steps')
    refine (readSymbol_alike h literals).bind fun symbol => .ite (ih _) (.ite (.pure out) ?_)
    refine (readExtra_alike h _ _).bind fun length => (readSymbol_alike h distances).bind fun _ => ?_
    exact (readExtra_alike h _ _).bind fun distance => ih _

theorem readLengthLengths_alike (count : Nat) : ∀ index lengths,
    ReadsAlike data whole (readLengthLengths count index lengths)
      (readLengthLengths count index lengths) := by
  induction count with
  | zero => exact fun _ lengths => .pure lengths
  | succ count ih => exact fun _ _ => (lowBits_alike h _ 3).bind fun _ => ih _ _

theorem readLengths_alike (code : PrefixCode) (total steps : Nat) : ∀ lengths,
    ReadsAlike data whole (readLengths code total steps lengths)
      (readLengths code total steps lengths) := by
  induction steps with
  | zero => exact fun _ => .error _
  | succ steps ih =>
    intro lengths
    refine .ite (.pure lengths) (.ite (.error _) ?_)
    refine (readSymbol_alike h code).bind fun symbol => .ite (ih _) (.ite ?_ ?_)
    · cases lengths.back? with
      | none => exact .error _
      | some last => exact (lowBits_alike h _ 2).bind fun _ => ih _
    · exact .ite ((lowBits_alike h _ 3).map.bind fun _ => ih _)
        ((lowBits_alike h _ 7).map.bind fun _ => ih _)

theorem readCodes_alike : ReadsAlike data whole readCodes readCodes := by
  refine (lowBits_alike h _ 5).bind fun _ => (lowBits_alike h _ 5).bind fun _ =>
    (lowBits_alike h _ 4).bind fun _ => .guard ?_
  refine (readLengthLengths_alike h _ _ _).bind fun _ => (codeOfLengths_alike _).bind fun _ => ?_
  refine (readLengths_alike h _ _ _ _).bind fun _ => (codeOfLengths_alike _).bind fun _ => ?_
  exact (codeOfLengths_alike _).bind fun _ => .pure _

theorem readStored_alike (count : Nat) : ∀ out,
    ReadsAlike data whole (readStored count out) (readStored count out) := by
  induction count with
  | zero => exact fun out => .pure out
  | succ count ih => exact fun _ => (lowBits_alike h _ 8).bind fun _ => ih _

theorem readBlock_alike {kind steps steps' : Nat} (hsteps : steps ≤ steps') (out : ByteArray) :
    ReadsAlike data whole (readBlock kind steps out) (readBlock kind steps' out) := by
  refine .ite ?stored (.ite ?fixed (.ite ?dynamic (.error _)))
  case stored =>
    refine skipToByte_alike.bind fun _ => (lowBits_alike h _ 16).bind fun size => ?_
    exact (lowBits_alike h _ 16).bind fun _ => .guard (readStored_alike h size out)
  case fixed => exact readSymbols_alike h hsteps out
  case dynamic => exact (readCodes_alike h).bind fun _ => readSymbols_alike h hsteps out

theorem readBlocks_alike {size size' steps steps' : Nat} (hsize : size ≤ size')
    (hsteps : steps ≤ steps') : ∀ out,
    ReadsAlike data whole (readBlocks size steps out) (readBlocks size' steps' out) := by
  induction steps generalizing steps' with
  | zero => exact fun _ => .error _
  | succ steps ih =>
    intro out
    obtain ⟨steps', rfl⟩ := Nat.exists_eq_add_of_le' hsteps
    refine (lowBit_alike h _).bind fun last => (lowBits_alike h _ 2).bind fun kind => ?_
    exact (readBlock_alike h hsize out).bind fun out => .ite (.pure out) (ih (Nat.le_add_left _ _) out)

theorem inflate_transfers (start : Nat) : Transfers Eq (inflate data start) (inflate whole start) := by
  have hsize : 8 * data.size + 1 ≤ 8 * whole.size + 1 := by
    have := h.size_le_size
    omega
  exact (readBlocks_alike h hsize hsize _).runFrom

end SqlDump.Codec.Inflate
