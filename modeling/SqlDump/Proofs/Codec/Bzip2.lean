import SqlDump.Codec.Bzip2
import SqlDump.Proofs.Codec.Bits
/-!
# Bzip2 files of several streams

What stands behind the first stream of a bzip2 file is not looked at.
-/

namespace SqlDump.Codec.Bzip2

variable {data whole : ByteArray} {α β : Type}

theorem readMany_alike {reader reader' : Reader α} (hreader : ReadsAlike data whole reader reader')
    (n : Nat) : ReadsAlike data whole (readMany reader n) (readMany reader' n) := by
  induction n with
  | zero => exact .pure []
  | succ n ih => exact hreader.bind fun _ => ih.bind fun _ => .pure _

theorem mapM_alike {f : α → Reader β} (hf : ∀ a, ReadsAlike data whole (f a) (f a)) (list : List α) :
    ReadsAlike data whole (list.mapM f) (list.mapM f) := by
  induction list with
  | nil => exact .pure []
  | cons a list ih =>
    rw [List.mapM_cons]
    exact (hf a).bind fun _ => ih.bind fun _ => .pure _

theorem endRun_alike (p : Progress) (room : Nat) :
    ReadsAlike data whole (p.endRun room) (p.endRun room) := .guard (.pure _)

variable (h : Embeds data whole 0)
include h

theorem readBit_alike : ReadsAlike data whole readBit readBit := highBit_alike h _

theorem readBits_alike (n : Nat) : ReadsAlike data whole (readBits n) (readBits n) :=
  highBits_alike h _ n

theorem expectBytes_alike (error : Error) (bytes : List Nat) :
    ReadsAlike data whole (expectBytes error bytes) (expectBytes error bytes) := by
  induction bytes with
  | nil => exact .pure ()
  | cons byte more ih => exact (readBits_alike h 8).bind fun _ => .guard ih

theorem readBytesInUse_alike : ReadsAlike data whole readBytesInUse readBytesInUse := by
  refine (readMany_alike (readBit_alike h) 16).bind fun parts => ?_
  refine (mapM_alike ?_ parts.zipIdx).bind fun used => .pure _
  rintro ⟨inUse, part⟩
  exact .ite (.pure []) ((readMany_alike (readBit_alike h) 16).bind fun _ => .pure _)

theorem readUnary_alike (limit : Nat) :
    ReadsAlike data whole (readUnary limit) (readUnary limit) := by
  induction limit with
  | zero => exact .error _
  | succ limit ih => exact (readBit_alike h).bind fun _ => .ite (.pure 0) (ih.bind fun _ => .pure _)

theorem readSelections_alike (codes count : Nat) :
    ReadsAlike data whole (readSelections codes count) (readSelections codes count) :=
  (readMany_alike (readUnary_alike h codes) count).bind fun _ => .pure _

theorem readLength_alike {steps steps' : Nat} (hsteps : steps ≤ steps') : ∀ length,
    ReadsAlike data whole (readLength steps length) (readLength steps' length) := by
  induction steps generalizing steps' with
  | zero => exact fun _ => .error _
  | succ steps ih =>
    intro length
    obtain ⟨steps', rfl⟩ := Nat.exists_eq_add_of_le' hsteps
    have ih := ih (Nat.le_add_left steps steps')
    refine .guard ((readBit_alike h).bind fun _ => .ite (.pure length) ?_)
    exact (readBit_alike h).bind fun _ => .ite (ih _) (ih _)

theorem readLengths_alike {steps steps' : Nat} (hsteps : steps ≤ steps') (count : Nat) :
    ∀ length lengths,
    ReadsAlike data whole (readLengths steps count length lengths)
      (readLengths steps' count length lengths) := by
  induction count with
  | zero => exact fun _ lengths => .pure lengths
  | succ count ih => exact fun length _ => (readLength_alike h hsteps length).bind fun _ => ih _ _

theorem readCode_alike {steps steps' : Nat} (hsteps : steps ≤ steps') (symbols : Nat) :
    ReadsAlike data whole (readCode steps symbols) (readCode steps' symbols) :=
  (readBits_alike h 5).bind fun _ => (readLengths_alike h hsteps _ _ _).bind fun _ => .pure _

theorem readSymbol_alike (tables : Tables) (number : Nat) :
    ReadsAlike data whole (tables.readSymbol number) (tables.readSymbol number) := by
  unfold Tables.readSymbol
  split
  · exact .error _
  · split
    · exact .error _
    · exact PrefixCode.read_alike (readBit_alike h)

theorem readColumn_alike (tables : Tables) {steps steps' : Nat} (hsteps : steps ≤ steps') :
    ∀ number p,
    ReadsAlike data whole (tables.readColumn steps number p) (tables.readColumn steps' number p) := by
  induction steps generalizing steps' with
  | zero => exact fun _ _ => .error _
  | succ steps ih =>
    intro number p
    obtain ⟨steps', rfl⟩ := Nat.exists_eq_add_of_le' hsteps
    have ih := ih (Nat.le_add_left steps steps')
    refine (readSymbol_alike h tables number).bind fun symbol => .ite (.guard (ih _ _)) ?_
    exact (endRun_alike p tables.room).bind fun p => .ite (.pure p.column) (.guard (ih _ _))

theorem readBlock_alike {level steps steps' : Nat} (hsteps : steps ≤ steps') (out : ByteArray) :
    ReadsAlike data whole (readBlock level steps out) (readBlock level steps' out) := by
  refine (readBits_alike h 32).bind fun stored => (readBit_alike h).bind fun flipped => ?_
  refine (readBits_alike h 24).bind fun origin => .guard ?_
  refine (readBytesInUse_alike h).bind fun inUse => .guard ?_
  refine (readBits_alike h 3).bind fun codeCount => .guard ?_
  refine (readBits_alike h 15).bind fun selectionCount => .guard ?_
  refine (readSelections_alike h codeCount selectionCount).bind fun selections => ?_
  refine (readMany_alike (readCode_alike h hsteps _) codeCount).bind fun codes => ?_
  refine (readColumn_alike h _ hsteps 0 _).bind fun column => .guard ?_
  dsimp only
  split
  · exact .error _
  · exact .guard (.pure _)

theorem readBlocks_alike {level size size' steps steps' : Nat} (hsize : size ≤ size')
    (hsteps : steps ≤ steps') : ∀ check out,
    ReadsAlike data whole (readBlocks level size steps check out)
      (readBlocks level size' steps' check out) := by
  induction steps generalizing steps' with
  | zero => exact fun _ _ => .error _
  | succ steps ih =>
    intro check out
    obtain ⟨steps', rfl⟩ := Nat.exists_eq_add_of_le' hsteps
    have ih := ih (Nat.le_add_left steps steps')
    refine (readBits_alike h 8).bind fun first => .ite ?last (.guard ?block)
    case last =>
      exact (expectBytes_alike h _ _).bind fun _ => (readBits_alike h 32).bind fun _ =>
        .guard (.pure out)
    case block =>
      refine (expectBytes_alike h _ _).bind fun _ => (readBlock_alike h hsize out).bind fun result => ?_
      exact ih _ _

theorem readStream_alike {size size' : Nat} (hsize : size ≤ size') :
    ReadsAlike data whole (readStream size) (readStream size') :=
  (expectBytes_alike h _ _).bind fun _ => (readBits_alike h 8).bind fun _ =>
    .guard (readBlocks_alike h hsize hsize _ _)

/-- A bzip2 file has the content of the first stream, whatever stands behind it. -/
theorem decode_transfers : Transfers Eq (decode data) (decode whole) := by
  have hsize : 8 * data.size + 1 ≤ 8 * whole.size + 1 := by
    have := h.size_le_size
    omega
  exact (readStream_alike h hsize).runFrom.bindEq fun _ => .refl _

end SqlDump.Codec.Bzip2
