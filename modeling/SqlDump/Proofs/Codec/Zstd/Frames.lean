import Mathlib.Data.List.Basic
import SqlDump.Codec.Zstd
import SqlDump.Proofs.Codec.Zstd.Sequences
/-!
# Zstandard files of several frames

A frame within longer data has the same content, be there other output in front of it or not. So the
frames of two files that stand one behind the other are read one after another.
-/

namespace SqlDump.Codec

variable {data whole : ByteArray} {k : Nat} (h : Embeds data whole k)
include h

/-! ## The check of the content -/

namespace XxHash

theorem wordAt_add {i : Nat} (hi : i + 8 ≤ data.size) : wordAt whole (k + i) = wordAt data i := by
  unfold wordAt
  rw [h.littleEndian_add hi]

theorem takeBlock_add (l : Lanes) {i : Nat} (hi : i + 32 ≤ data.size) :
    l.takeBlock whole (k + i) = l.takeBlock data i := by
  unfold Lanes.takeBlock
  rw [wordAt_add h (by omega), Nat.add_assoc, wordAt_add h (by omega), Nat.add_assoc,
    wordAt_add h (by omega), Nat.add_assoc, wordAt_add h (by omega)]

theorem mixRest_add {stop : Nat} (hstop : stop ≤ data.size) (steps : Nat) : ∀ i x,
    mixRest whole (k + stop) steps (k + i) x = mixRest data stop steps i x := by
  induction steps with
  | zero => exact fun _ _ => rfl
  | succ steps ih =>
    intro i x
    unfold mixRest
    by_cases h8 : i + 8 ≤ stop
    · rw [if_pos h8, if_pos (by omega), wordAt_add h (by omega), Nat.add_assoc, ih]
    · rw [if_neg h8, if_neg (by omega)]
      by_cases h4 : i + 4 ≤ stop
      · rw [if_pos h4, if_pos (by omega), h.littleEndian_add (by omega), Nat.add_assoc, ih]
      · rw [if_neg h4, if_neg (by omega)]
        by_cases h1 : i < stop
        · rw [if_pos h1, if_pos (by omega), h.littleEndian_add (by omega), Nat.add_assoc, ih]
        · rw [if_neg h1, if_neg (by omega)]

theorem hash_add (start : Nat) {stop : Nat} (hstop : stop ≤ data.size) :
    hash whole (k + start) (k + stop) = hash data start stop := by
  have hlanes : (List.range ((stop - start) / 32)).foldl
      (fun l j => l.takeBlock whole (k + start + 32 * j)) Lanes.start =
      (List.range ((stop - start) / 32)).foldl
      (fun l j => l.takeBlock data (start + 32 * j)) Lanes.start := by
    refine List.foldl_ext _ _ _ fun l j hj => ?_
    rw [List.mem_range] at hj
    rw [Nat.add_assoc, takeBlock_add h l (by omega)]
  unfold hash
  rw [Nat.add_sub_add_left]
  dsimp only
  rw [hlanes, Nat.add_assoc, mixRest_add h hstop]

end XxHash

namespace Zstd

/-! ## Headers -/

theorem need_transfers (start count : Nat) :
    Transfers (fun _ _ => start + count ≤ data.size) (need data start count)
      (need whole (k + start) count) := by
  intro _ hneed
  unfold need at hneed ⊢
  split at hneed
  · next hle =>
    have := h.size_le
    exact ⟨(), if_pos (by omega), hle⟩
  · cases hneed

/-- A header is moved, and it ends behind the place where it starts. -/
theorem readFrameHeader_transfers {start : Nat} (hstart : start + 5 ≤ data.size) :
    Transfers (fun a b => b = { a with next := k + a.next } ∧ start < a.next)
      (readFrameHeader data start) (readFrameHeader whole (k + start)) := by
  unfold readFrameHeader
  dsimp only
  rw [Nat.add_assoc k start 4, h.littleEndian_add (by omega)]
  generalize littleEndian data (start + 4) 1 = flags
  simp only [Nat.add_assoc k]
  rw [Nat.add_sub_add_left]
  refine (need_transfers h _ _).bind fun _ _ hsize => ?_
  refine .guard id fun _ => ?_
  rw [h.littleEndian_add (by omega), h.littleEndian_add (by omega), h.littleEndian_add (by omega)]
  refine .guard id fun _ => .guard id fun _ => .guard id fun _ => .pure ⟨rfl, ?_⟩
  dsimp only
  omega

/-! ## Blocks -/

/-- The same state of a frame with other output in front. -/
def SameFrame (front : ByteArray) (s s' : FrameState) : Prop :=
  s' = { s with base := front.size + s.base, out := front ++ s.out }

/-- The same output with other output in front, and the same place in the longer data, which lies
behind a start. -/
def Onward (front : ByteArray) (k start : Nat) (r r' : ByteArray × Nat) : Prop :=
  r' = (front ++ r.1, k + r.2) ∧ start < r.2

variable {front : ByteArray}

theorem readCompressed_transfers {start stop : Nat} (hstop : stop ≤ data.size) (most : Nat)
    {s s' : FrameState} (hs : SameFrame front s s') :
    Transfers (SameFrame front) (readCompressed data start stop most s)
      (readCompressed whole (k + start) (k + stop) most s') := by
  rw [hs]
  refine (readLiterals_transfers h hstop most s.code).bind ?_
  rintro literals _ rfl
  refine (readCount_transfers h hstop).bind ?_
  rintro ⟨count, place⟩ ⟨_, _⟩ ⟨rfl, rfl⟩
  refine .ite .rfl (fun _ => .guard (by omega) fun _ => .pure ?_) fun _ => ?_
  · rw [ByteArray.append_assoc]
    rfl
  · refine (readTables_transfers h hstop s.tables).bind ?_
    rintro ⟨tables, place⟩ ⟨_, _⟩ ⟨rfl, rfl⟩
    refine (orCorrupt_transfers (execute_transfers h _ _ _ hstop _ _ _)).bind ?_
    rintro ⟨out, recent⟩ _ rfl
    exact .pure rfl

theorem readContent_transfers {kind size stored place : Nat} (hkind : kind = 1 → stored = 1)
    (hplace : place + stored ≤ data.size) (most : Nat) {s s' : FrameState} (hs : SameFrame front s s') :
    Transfers (SameFrame front) (readContent data kind size stored place most s)
      (readContent whole kind size stored (k + place) most s') := by
  refine .ite .rfl (fun _ => .pure hs) fun _ => .ite .rfl (fun _ => ?_) fun _ => ?_
  · rw [Nat.add_assoc]
    exact readCompressed_transfers h hplace most hs
  · rw [hs]
    refine .ite .rfl (fun hone => .guard id fun _ => .pure ?_) fun _ => .pure ?_
    · have hlt : place < data.size := by
        have := hkind hone
        omega
      rw [h.getElem?_add place hlt, ByteArray.append_assoc]
      rfl
    · rw [Nat.add_assoc, h.extract_add place hplace, ByteArray.append_assoc]
      rfl

/-- A block is moved, and it ends behind the place where it starts. -/
theorem readBlock_transfers (start most : Nat) {s s' : FrameState} (hs : SameFrame front s s') :
    Transfers (fun r r' => SameFrame front r.1 r'.1 ∧ r'.2 = (k + r.2.1, r.2.2) ∧ start < r.2.1)
      (readBlock data start most s) (readBlock whole (k + start) most s') := by
  refine (need_transfers h _ _).bind fun _ _ hsize => ?_
  rw [h.littleEndian_add hsize]
  refine .guard id fun _ => .guard id fun _ => ?_
  rw [Nat.add_assoc]
  refine (need_transfers h _ _).bind fun _ _ hstored => ?_
  refine (readContent_transfers h (fun hone => if_pos hone) hstored most hs).bind ?_
  rintro t _ rfl
  rw [hs]
  refine .guard ?_ fun _ => .pure ⟨rfl, ?_, ?_⟩
  · dsimp only
    rw [ByteArray.size_append, ByteArray.size_append, Nat.add_sub_add_left]
    exact id
  · rw [Nat.add_assoc]
  · dsimp only
    omega

theorem readBlocks_transfers (most : Nat) {steps steps' : Nat} (hsteps : steps ≤ steps') :
    ∀ (start : Nat) {s s' : FrameState}, SameFrame front s s' →
    Transfers (Onward front k start)
      (readBlocks data most steps start s) (readBlocks whole most steps' (k + start) s') := by
  induction steps generalizing steps' with
  | zero => exact fun _ _ _ _ => .error _
  | succ steps ih =>
    intro start s s' hs
    obtain ⟨steps', rfl⟩ := Nat.exists_eq_add_of_le' hsteps
    refine (readBlock_transfers h start most hs).bind ?_
    rintro ⟨t, place, last⟩ ⟨t', _⟩ ⟨ht, rfl, hlt⟩
    refine .ite .rfl (fun _ => .pure ⟨?_, hlt⟩) fun _ => ?_
    · exact congrArg (fun s : FrameState => (s.out, k + place)) ht
    · rintro r hr
      obtain ⟨r', hr', hmoved, hplace⟩ := ih (Nat.le_add_left steps steps') place ht r hr
      exact ⟨r', hr', hmoved, Nat.lt_trans hlt hplace⟩

/-! ## Frames -/

/-- A frame is moved, and it ends behind the place where it starts. -/
theorem readFrame_transfers {start : Nat} (hstart : start + 5 ≤ data.size) (out : ByteArray) :
    Transfers (Onward front k start)
      (readFrame data start out) (readFrame whole (k + start) (front ++ out)) := by
  refine (readFrameHeader_transfers h hstart).bind ?_
  rintro header _ ⟨rfl, hnext⟩
  have hsteps : data.size + 1 ≤ whole.size + 1 := by
    have := h.size_le
    omega
  have hsame : SameFrame front ⟨out.size, out, none, none, Recent.start⟩
      ⟨(front ++ out).size, front ++ out, none, none, Recent.start⟩ := by
    unfold SameFrame
    rw [ByteArray.size_append]
  refine (readBlocks_transfers h _ hsteps header.next hsame).bind ?_
  rintro ⟨out', place⟩ _ ⟨rfl, hplace⟩
  dsimp only
  rw [ByteArray.size_append, ByteArray.size_append, Nat.add_sub_add_left]
  refine .guard id fun _ => .ite .rfl (fun _ => ?_) fun _ => .pure ⟨rfl, Nat.lt_trans hnext hplace⟩
  refine (need_transfers h _ _).bind fun _ _ hsize => ?_
  rw [h.littleEndian_add hsize, XxHash.hash_add (Embeds.append_left front out') _ (Nat.le_refl _)]
  refine .guard id fun _ => .pure ⟨?_, ?_⟩
  · rw [Nat.add_assoc]
  · dsimp only
    omega

theorem readAnyFrame_transfers (start : Nat) (out : ByteArray) :
    Transfers (Onward front k start)
      (readAnyFrame data start out) (readAnyFrame whole (k + start) (front ++ out)) := by
  unfold readAnyFrame
  dsimp only
  have hle := h.size_le
  by_cases hstart : data.size < start + 5
  · rw [if_pos hstart]
    exact .error _
  · have hcut : ¬whole.size < k + start + 5 := by omega
    rw [if_neg hstart, if_neg hcut, h.littleEndian_add (by omega : start + 4 ≤ data.size)]
    refine .ite .rfl (fun _ => readFrame_transfers h (by omega) out) fun _ => ?_
    refine .ite .rfl (fun _ => ?_) fun _ => .error _
    refine (need_transfers h _ _).bind fun _ _ hsize => ?_
    simp only [Nat.add_assoc k]
    rw [h.littleEndian_add (by omega)]
    refine (need_transfers h _ _).bind fun _ _ hskipped => .pure ⟨?_, ?_⟩
    · rw [Nat.add_assoc]
    · dsimp only
      omega

/-! ## Files -/

omit h in
theorem lt_size_of_readFrames {steps start : Nat} {out result : ByteArray}
    (hframes : readFrames data steps start out = .ok result) : start < data.size := by
  refine Nat.lt_of_not_le fun hle => ?_
  cases steps with
  | zero => cases hframes
  | succ steps =>
    obtain ⟨_, hframe, -⟩ := bind_eq_ok.1 hframes
    unfold readAnyFrame at hframe
    dsimp only at hframe
    rw [if_pos (by omega)] at hframe
    cases hframe

/-- Where the longer data ends with the data, it has the same frames from there on. -/
theorem readFrames_transfers (hend : whole.size = k + data.size) {steps steps' : Nat}
    (hsteps : steps ≤ steps') : ∀ start out,
    Transfers (fun r r' => r' = front ++ r) (readFrames data steps start out)
      (readFrames whole steps' (k + start) (front ++ out)) := by
  induction steps generalizing steps' with
  | zero => exact fun _ _ => .error _
  | succ steps ih =>
    intro start out
    obtain ⟨steps', rfl⟩ := Nat.exists_eq_add_of_le' hsteps
    refine (readAnyFrame_transfers h start out).bind ?_
    rintro ⟨out, place⟩ _ ⟨rfl, -⟩
    refine .ite (by omega) (fun _ => .pure rfl) fun _ => ?_
    exact ih (Nat.le_add_left steps steps') place out

omit h in
/-- Where the longer data goes on behind the data, it is read on from there. Each frame has some
bytes, so that a step for each byte leaves the other steps to what comes behind. -/
theorem readFrames_go_on (h : Embeds data whole 0) (hlt : data.size < whole.size) {steps : Nat} :
    ∀ {start : Nat} {out result : ByteArray}, readFrames data steps start out = .ok result →
    ∀ {n left : Nat}, data.size + left ≤ start + n →
      ∃ rest, left ≤ rest ∧
        readFrames whole n start out = readFrames whole rest data.size result := by
  -- the invariant is that the steps that are left cover the bytes that are left
  induction steps with
  | zero => exact fun hframes => nomatch hframes
  | succ steps ih =>
    intro start out result hframes n left hn
    have hstart := lt_size_of_readFrames hframes
    obtain ⟨⟨out', place⟩, hframe, hrest⟩ := bind_eq_ok.1 hframes
    have hmoved : Transfers (Onward ByteArray.empty 0 start) _ _ := readAnyFrame_transfers h start out
    obtain ⟨_, hframe', rfl, hplace⟩ := hmoved _ hframe
    simp only [Nat.zero_add, ByteArray.empty_append] at hframe'
    dsimp only at hplace hrest
    cases n with
    | zero => omega
    | succ n =>
      have hstep : readFrames whole (n + 1) start out =
          if place = whole.size then .ok out' else readFrames whole n place out' := by
        show readAnyFrame whole start out >>= _ = _
        rw [hframe']
        rfl
      by_cases hend : place = data.size
      · rw [if_pos hend] at hrest
        cases hrest
        refine ⟨n, by omega, ?_⟩
        rw [hstep, if_neg (by omega), hend]
      · rw [if_neg hend] at hrest
        -- another frame follows in the data, so that this is not the end of the longer data either
        have hinside := lt_size_of_readFrames hrest
        obtain ⟨rest, hleft, hrest'⟩ := ih hrest (by omega : data.size + left ≤ place + n)
        refine ⟨rest, hleft, ?_⟩
        rw [hstep, if_neg (by omega), hrest']

omit h in
/-- A file of two files' frames has the content of the one behind that of the other. -/
theorem decode_append {x y a b : ByteArray} (hx : decode x = .ok a) (hy : decode y = .ok b) :
    decode (x ++ y) = .ok (a ++ b) := by
  have hsize : (x ++ y).size = x.size + y.size := ByteArray.size_append
  unfold decode at hx hy ⊢
  split at hx
  · cases hx
  split at hy
  · cases hy
  next hx0 hy0 =>
    rw [if_neg (by omega)]
    -- the frames of `x` take at most one step for each byte, which leaves enough steps for `y`
    obtain ⟨rest, hrest, hx'⟩ := readFrames_go_on (.append_right x y) (by omega) hx
      (by omega : x.size + (y.size + 1) ≤ 0 + ((x ++ y).size + 1))
    have hmoved : Transfers (fun r r' => r' = a ++ r) _ _ :=
      readFrames_transfers (.append_left x y) hsize hrest 0 ByteArray.empty
    obtain ⟨_, hy', rfl⟩ := hmoved _ hy
    rw [Nat.add_zero, ByteArray.append_empty] at hy'
    exact hx'.trans hy'

end Zstd

end SqlDump.Codec
