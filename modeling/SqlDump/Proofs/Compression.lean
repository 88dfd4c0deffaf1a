import SqlDump.Proofs.Codec.Bzip2
import SqlDump.Proofs.Codec.Gzip
import SqlDump.Proofs.Codec.Xz
import SqlDump.Proofs.Codec.Zstd.Frames
import SqlDump.Proofs.Dump
/-!
# Compressed files of several streams

Two compressed files can stand one behind the other in one file. The formats differ in what is read of
such a file: gzip and bzip2 give the content of the first part alone, xz refuses the file, and
Zstandard gives both contents (`decode_append`).
-/

namespace SqlDump.Compression

variable {x y a b : ByteArray}

theorem decode_gzip_append (hx : gzip.decode x = .ok a) (y : ByteArray) :
    gzip.decode (x ++ y) = .ok a :=
  mapError_eq_ok.2 ((Codec.Gzip.decode_transfers (.append_right x y)).ok (mapError_eq_ok.1 hx))

theorem decode_bzip2_append (hx : bzip2.decode x = .ok a) (y : ByteArray) :
    bzip2.decode (x ++ y) = .ok a :=
  mapError_eq_ok.2 ((Codec.Bzip2.decode_transfers (.append_right x y)).ok (mapError_eq_ok.1 hx))

theorem decode_xz_append (hx : xz.decode x = .ok a) (hy : 0 < y.size) :
    xz.decode (x ++ y) = .error (.xz .trailingData) := by
  have hlt : x.size < (x ++ y).size := by
    rw [ByteArray.size_append]
    omega
  unfold decode
  dsimp only
  rw [Codec.Xz.decode_of_lt (.append_right x y) hlt (mapError_eq_ok.1 hx)]
  rfl

theorem decode_zstd_append (hx : zstd.decode x = .ok a) (hy : zstd.decode y = .ok b) :
    zstd.decode (x ++ y) = .ok (a ++ b) :=
  mapError_eq_ok.2 (Codec.Zstd.decode_append (mapError_eq_ok.1 hx) (mapError_eq_ok.1 hy))

/-- What is read of two streams that stand one behind the other, unless that fails. -/
def joined (c : Compression) (a b : ByteArray) : ByteArray := if c = gzip ∨ c = bzip2 then a else a ++ b

theorem decode_append {c : Compression} (hx : c.decode x = .ok a) (hy : c.decode y = .ok b) :
    c.decode (x ++ y) = if c = xz then .error (.xz .trailingData) else .ok (c.joined a b) := by
  cases c with
  | plain =>
    cases hx
    cases hy
    rfl
  | gzip => exact decode_gzip_append hx y
  | bzip2 => exact decode_bzip2_append hx y
  | xz => exact decode_xz_append hx (Codec.Xz.size_pos_of_decode (mapError_eq_ok.1 hy))
  | zstd => exact decode_zstd_append hx hy

theorem append_eq_left_iff : a = a ++ b ↔ b = ByteArray.empty := by
  constructor
  · intro hab
    have hsize := congrArg ByteArray.size hab
    rw [ByteArray.size_append] at hsize
    exact ByteArray.size_eq_zero_iff.1 (by omega)
  · rintro rfl
    exact ByteArray.append_empty.symm

/-- Nothing of the second content is lost if it is read too, or if there is nothing to lose. -/
theorem joined_eq_append_iff {c : Compression} :
    c.joined a b = a ++ b ↔ (c = gzip ∨ c = bzip2 → b = ByteArray.empty) := by
  unfold joined
  by_cases hc : c = gzip ∨ c = bzip2
  · rw [if_pos hc, append_eq_left_iff]
    exact ⟨fun hb _ => hb, fun hb => hb hc⟩
  · rw [if_neg hc]
    exact ⟨fun _ hc' => absurd hc' hc, fun _ => rfl⟩

/-- Two streams that stand one behind the other are refused or read in full, unless the format is gzip
or bzip2 and the second content is not empty. A dump in such a file is the text of what is read. -/
theorem decode_streams {c : Compression} (hx : c.decode x = .ok a) (hy : c.decode y = .ok b) :
    (((∃ e, c.decode (x ++ y) = .error e) ∨ c.decode (x ++ y) = .ok (a ++ b)) ↔
      (c = gzip ∨ c = bzip2 → b = ByteArray.empty)) ∧
    ∀ (s : Storage) (path : Storage.Path) (t : List Char), ofPath path = c →
      s.lookup path = .ok (.file (x ++ y)) → Dump.read s path = .ok t →
      Dump.textOf plain (c.joined a b) = .ok t := by
  have hjoined := decode_append hx hy
  refine ⟨?_, fun s path t hpath hlookup hread => ?_⟩
  · rw [hjoined, ← joined_eq_append_iff]
    by_cases hxz : c = xz
    · rw [if_pos hxz, hxz]
      exact ⟨fun _ => rfl, fun _ => .inl ⟨_, rfl⟩⟩
    · rw [if_neg hxz]
      constructor
      · rintro (⟨e, he⟩ | hok)
        · cases he
        · exact Except.ok.inj hok
      · intro hab
        exact .inr (congrArg _ hab)
  · rw [Dump.read_file hlookup, hpath] at hread
    have htext : Dump.textOf c (x ++ y) = .ok t := mapError_eq_ok.1 hread
    by_cases hxz : c = xz
    · rw [if_pos hxz] at hjoined
      unfold Dump.textOf at htext
      rw [hjoined] at htext
      cases htext
    · rw [if_neg hxz] at hjoined
      rwa [Dump.textOf_of_decode hjoined] at htext

/-- A gzip member with one byte, stored as it is. The check of the byte is given from its low end. -/
def oneByteMember (byte : UInt8) (check : Array UInt8) : ByteArray :=
  ⟨#[31, 139, 8, 0, 0, 0, 0, 0, 0, 255, 1, 1, 0, 254, 255, byte] ++ check ++ #[1, 0, 0, 0]⟩

/-- The member with the text `a`. -/
def memberA : ByteArray := oneByteMember 97 #[67, 190, 183, 232]

/-- The member with the text `b`. -/
def memberB : ByteArray := oneByteMember 98 #[249, 239, 190, 113]

/-- The file `a.gz` with both members is read as `a`. -/
theorem decode_streams_members :
    let s := Storage.fresh.put [[0x68], [0x64], [0x61, 0x2E, 0x67, 0x7A]] (.file (memberA ++ memberB)) rfl
    Dump.read s ⟨[0x61, 0x2E, 0x67, 0x7A]⟩ = .ok ['a'] ∧
      Dump.textOf plain (gzip.joined ⟨#[97]⟩ ⟨#[98]⟩) = .ok ['a'] := by
  have hread : Dump.read (Storage.fresh.put [[0x68], [0x64], [0x61, 0x2E, 0x67, 0x7A]]
      (.file (memberA ++ memberB)) rfl) ⟨[0x61, 0x2E, 0x67, 0x7A]⟩ = .ok ['a'] := by rfl
  have hA : gzip.decode memberA = .ok ⟨#[97]⟩ := by rfl
  have hB : gzip.decode memberB = .ok ⟨#[98]⟩ := by rfl
  exact ⟨hread, (decode_streams hA hB).2 _ _ _ rfl rfl hread⟩

/-- The second member is lost without an error. -/
theorem not_decode_streams_members :
    gzip.decode memberA = .ok ⟨#[97]⟩ ∧ gzip.decode memberB = .ok ⟨#[98]⟩ ∧
      ¬((∃ e, gzip.decode (memberA ++ memberB) = .error e) ∨
        gzip.decode (memberA ++ memberB) = .ok (⟨#[97]⟩ ++ ⟨#[98]⟩)) := by
  have hAB : gzip.decode (memberA ++ memberB) = .ok ⟨#[97]⟩ := by rfl
  refine ⟨by rfl, by rfl, ?_⟩
  rw [hAB]
  rintro (⟨e, he⟩ | hok)
  · cases he
  · exact absurd (Except.ok.inj hok) (by decide)

end SqlDump.Compression
