import SqlDump.Codec.PrefixCode
import SqlDump.Proofs.Codec.Embedding
/-!
# Bits of longer data

A reader of bits that succeeds reads the same from longer data that starts with its data.
-/

namespace SqlDump.Codec

variable {ε α β : Type}

/-- What `r` reads from the data, `r'` reads from the longer data. -/
def ReadsAlike (data whole : ByteArray) (r r' : BitReader ε α) : Prop :=
  TransfersOn Eq (r data) (r' whole)

namespace ReadsAlike

variable {data whole : ByteArray} {r r' : BitReader ε α}

theorem pure (a : α) : ReadsAlike data whole (Pure.pure a : BitReader ε α) (Pure.pure a) :=
  TransfersOn.pure a

theorem error (e : ε) : ReadsAlike data whole (throw e) r := TransfersOn.error e

theorem bind {f f' : α → BitReader ε β} (hr : ReadsAlike data whole r r')
    (hf : ∀ a, ReadsAlike data whole (f a) (f' a)) : ReadsAlike data whole (r >>= f) (r' >>= f') :=
  TransfersOn.bind hr hf

theorem map {f : α → β} (hr : ReadsAlike data whole r r') :
    ReadsAlike data whole (f <$> r) (f <$> r') :=
  hr.bind fun a => .pure (f a)

theorem guard {p : Prop} [Decidable p] {e : ε} {f f' : PUnit → BitReader ε α}
    (hr : ReadsAlike data whole r r') :
    ReadsAlike data whole (if p then throw e >>= f else r) (if p then throw e >>= f' else r') := by
  split
  · exact fun _ _ _ => .error e
  · exact hr

theorem ite {p : Prop} [Decidable p] {r₁ r₂ r₁' r₂' : BitReader ε α}
    (h₁ : ReadsAlike data whole r₁ r₁') (h₂ : ReadsAlike data whole r₂ r₂') :
    ReadsAlike data whole (if p then r₁ else r₂) (if p then r₁' else r₂') := by
  split
  · exact h₁
  · exact h₂

/-- A run from a byte on gives the same. -/
theorem runFrom (hr : ReadsAlike data whole r r') {start : Nat} :
    Transfers Eq (r.runFrom data start) (r'.runFrom whole start) := by
  refine (hr _ _ rfl).bind ?_
  rintro ⟨a, pos⟩ ⟨_, _⟩ ⟨rfl, rfl⟩
  exact .pure rfl

end ReadsAlike

variable {data whole : ByteArray} (h : Embeds data whole 0)
include h

/-- A bit is read alike from either end of its byte. -/
theorem bit_alike (cut : ε) (pick : UInt8 → Nat → Nat) :
    ReadsAlike data whole
      (fun data pos => match data[pos / 8]? with
        | none => .error cut
        | some byte => .ok (pick byte pos, pos + 1))
      (fun data pos => match data[pos / 8]? with
        | none => .error cut
        | some byte => .ok (pick byte pos, pos + 1)) := by
  rintro pos _ rfl
  dsimp only
  cases hbyte : data[pos / 8]? with
  | none => exact .error cut
  | some byte =>
    rw [h.getElem?_eq_some hbyte]
    exact .pure ⟨rfl, rfl⟩

theorem lowBit_alike (cut : ε) : ReadsAlike data whole (lowBit cut) (lowBit cut) :=
  bit_alike h cut fun byte pos => (byte.toNat >>> (pos % 8)) % 2

theorem highBit_alike (cut : ε) : ReadsAlike data whole (highBit cut) (highBit cut) :=
  bit_alike h cut fun byte pos => (byte.toNat >>> (7 - pos % 8)) % 2

theorem lowBits_alike (cut : ε) (n : Nat) : ReadsAlike data whole (lowBits cut n) (lowBits cut n) := by
  induction n with
  | zero => exact .pure 0
  | succ n ih => exact (lowBit_alike h cut).bind fun _ => ih.bind fun _ => .pure _

theorem highBits_alike (cut : ε) (n : Nat) : ReadsAlike data whole (highBits cut n) (highBits cut n) := by
  suffices hbehind : ∀ front,
      ReadsAlike data whole (highBitsBehind cut n front) (highBitsBehind cut n front) from hbehind 0
  induction n with
  | zero => exact fun front => .pure front
  | succ n ih => exact fun front => (highBit_alike h cut).bind fun _ => ih _

omit h

theorem skipToByte_alike : ReadsAlike data whole (skipToByte : BitReader ε Unit) skipToByte := by
  rintro pos _ rfl
  exact .pure ⟨rfl, rfl⟩

theorem PrefixCode.read_alike {code : PrefixCode} {bit : BitReader ε Nat} {bad : ε} {longest : Nat}
    (hbit : ReadsAlike data whole bit bit) :
    ReadsAlike data whole (code.read bit bad longest) (code.read bit bad longest) := by
  suffices hfrom : ∀ length word first index,
      ReadsAlike data whole (code.readFrom bit bad longest length word first index)
        (code.readFrom bit bad longest length word first index) from hfrom 0 0 0 0
  induction longest with
  | zero => exact fun _ _ _ _ => .error bad
  | succ more ih =>
    intro length word first index
    refine hbit.bind fun b => .ite ?_ (ih _ _ _ _)
    split
    · exact .pure _
    · exact .error bad

end SqlDump.Codec
