import SqlDump.Compression
import SqlDump.Proofs.Storage.LastComponent
import SqlDump.Proofs.Text.LowerCase
import SqlDump.Proofs.Text.Utf8
/-!
# Extensions of compressed files

The extension of a file names its format in any mix of capital and small letters, all of them in ASCII
(`ofExtension_eq_iff`). It is the last component of a path that has the extension, and nothing else in the path
counts (`ofPath_eq_iff`).
-/

namespace SqlDump.Compression

open Storage Text

/-! ## Spellings -/

/-- The bytes of an extension in lower case. -/
def lowerBytes (text : String) : List UInt8 := text.toUTF8.data.toList

/-- A byte is a character of an extension, or the capital of a small letter. -/
def IsCaseOf (byte lower : UInt8) : Prop :=
  byte = lower ∨ 0x61 ≤ lower ∧ lower ≤ 0x7A ∧ byte = lower - 0x20

/-- The extension is spelled with capital and small letters in any mix. -/
def Spells (extension : Name) (text : String) : Prop := List.Forall₂ IsCaseOf extension (lowerBytes text)

/-- A byte, a capital letter of ASCII being changed to its small one. -/
def lowerByte (byte : UInt8) : UInt8 := if 0x41 ≤ byte ∧ byte ≤ 0x5A then byte + 0x20 else byte

/-- The extensions that name a format, in small letters. -/
def names : Compression → List String
  | plain => []
  | gzip => ["gz", "gzip"]
  | bzip2 => ["bz2", "bzip2"]
  | xz => ["xz", "lzma"]
  | zstd => ["zst", "zstd"]

variable {byte lower : UInt8} {d : Char} {s : List Char} {text : String} {format : Compression}
  {extension extension' : Name}

theorem lowerByte_of_isCaseOf (h : IsCaseOf byte lower) (hlower : ¬ (0x41 ≤ lower ∧ lower ≤ 0x5A)) :
    lowerByte byte = lower := by
  unfold lowerByte
  rcases h with rfl | ⟨hle, hle', rfl⟩
  · rw [if_neg hlower]
  · rw [if_pos, UInt8.sub_add_cancel]
    rw [UInt8.le_iff_toNat_le] at hle hle' ⊢
    rw [UInt8.le_iff_toNat_le]
    have hsub : (lower - 0x20).toNat = lower.toNat - 0x20 := UInt8.toNat_sub_of_le _ _ (by
      rw [UInt8.le_iff_toNat_le]
      exact Nat.le_trans (by decide) hle)
    rw [hsub]
    simp at hle hle' ⊢
    omega

theorem isCaseOf_lowerByte (byte : UInt8) : IsCaseOf byte (lowerByte byte) := by
  have hall : ∀ n < 256, IsCaseOf (.ofNat n) (lowerByte (.ofNat n)) := by
    unfold IsCaseOf
    decide +kernel
  have hbyte := hall byte.toNat byte.toNat_lt
  rwa [UInt8.ofNat_toNat] at hbyte

theorem isCaseOf_toLower : ∀ n < 128,
    IsCaseOf (asciiByte (.ofNat n)) (asciiByte (Char.ofNat n).toLower) := by
  unfold IsCaseOf
  decide +kernel

/-- The capital of a small letter, as a byte and as a character. -/
theorem capital_spec : ∀ n < 128, 0x61 ≤ asciiByte (.ofNat n) → asciiByte (.ofNat n) ≤ 0x7A →
    (Char.ofNat n).toUpper.toNat < 128 ∧ asciiByte (.ofNat n) - 0x20 = asciiByte (Char.ofNat n).toUpper ∧
      (Char.ofNat n).toUpper.toLower = Char.ofNat n := by
  decide +kernel

theorem exists_char_of_isCaseOf (hd : d.toNat < 128) (hlower : d.toLower = d)
    (h : IsCaseOf byte (asciiByte d)) : ∃ c, c.toNat < 128 ∧ byte = asciiByte c ∧ c.toLower = d := by
  rcases h with rfl | ⟨hle, hle', rfl⟩
  · exact ⟨d, hd, rfl, hlower⟩
  · have hcapital := capital_spec d.toNat hd
    rw [Char.ofNat_toNat] at hcapital
    exact ⟨d.toUpper, hcapital hle hle'⟩

/-! ## The table of extensions -/

/-- What the extensions are made of: small letters and digits of ASCII, but not the small letter of the Kelvin sign. -/
structure IsNameChar (c : Char) : Prop where
  ascii : c.toNat < 128
  not_kelvin : c ≠ 'k'
  lower : c.toLower = c

theorem isNameChar_of_mem (h : text ∈ names format) : ∀ c ∈ text.toList, IsNameChar c := by
  have hall : text.toList.all (fun c => c.toNat < 128 && c != 'k' && c.toLower == c) = true := by
    revert text
    cases format <;> decide
  intro c hc
  have hchar := List.all_eq_true.1 hall c hc
  simp only [Bool.and_eq_true, decide_eq_true_eq, bne_iff_ne, beq_iff_eq] at hchar
  exact ⟨hchar.1.1, hchar.1.2, hchar.2⟩

theorem mem_names_of_mem_extensions : ∀ entry ∈ extensions, entry.1 ∈ names entry.2 ∧ entry.2 ≠ plain := by
  decide +kernel

theorem find?_extensions (h : text ∈ names format) :
    extensions.find? (fun entry => entry.1.toList == text.toList) = some (text, format) := by
  revert text
  cases format <;> decide +kernel

theorem lowerBytes_eq (h : text ∈ names format) : lowerBytes text = text.toList.map asciiByte := by
  unfold lowerBytes
  rw [toUTF8_eq_utf8, utf8_of_ascii fun c hc => (isNameChar_of_mem h c hc).ascii]

/-- An extension spells a name if it has the same bytes but for capitals. -/
theorem spells_iff (h : text ∈ names format) : Spells extension text ↔ extension.map lowerByte = lowerBytes text := by
  have hlower : ∀ lower ∈ lowerBytes text, ¬ (0x41 ≤ lower ∧ lower ≤ 0x5A) := by
    revert text
    cases format <;> decide +kernel
  constructor
  · intro hspells
    unfold Spells at hspells
    generalize lowerBytes text = letters at hspells hlower
    induction hspells with
    | nil => rfl
    | cons hbyte _ ih =>
      rw [List.map_cons, lowerByte_of_isCaseOf hbyte (hlower _ List.mem_cons_self),
        ih fun lower hmem => hlower lower (List.mem_cons_of_mem _ hmem)]
  · intro hmap
    unfold Spells
    rw [← hmap, List.forall₂_map_right_iff]
    exact List.forall₂_same.2 fun byte _ => isCaseOf_lowerByte byte

theorem exists_text_of_spells (h : text ∈ names format) (hspells : Spells extension text) :
    ∃ s, extension = utf8 s ∧ lowerCase s = text.toList := by
  have hname := isNameChar_of_mem h
  have hchars : ∃ s : List Char, (∀ c ∈ s, c.toNat < 128) ∧ extension = s.map asciiByte ∧
      s.map Char.toLower = text.toList := by
    unfold Spells at hspells
    rw [lowerBytes_eq h, List.forall₂_map_right_iff] at hspells
    generalize text.toList = letters at hspells hname
    induction hspells with
    | nil => exact ⟨[], by simp⟩
    | cons hbyte _ ih =>
      obtain ⟨hchar, hrest⟩ := List.forall_mem_cons.1 hname
      obtain ⟨c, hc, rfl, rfl⟩ := exists_char_of_isCaseOf hchar.ascii hchar.lower hbyte
      obtain ⟨s, hs, rfl, rfl⟩ := ih hrest
      exact ⟨c :: s, List.forall_mem_cons.2 ⟨hc, hs⟩, rfl, rfl⟩
  obtain ⟨s, hs, rfl, hlower⟩ := hchars
  exact ⟨s, (utf8_of_ascii hs).symm, (lowerCase_of_ascii hs).trans hlower⟩

/-- Of all texts in Unicode those that spell a name have it for their lower case. -/
theorem lowerCase_eq_iff_spells (h : text ∈ names format) : lowerCase s = text.toList ↔ Spells (utf8 s) text := by
  have hname := isNameChar_of_mem h
  constructor
  · intro hlower
    obtain ⟨hs, hmap⟩ := (lowerCase_eq_iff fun c hc => ⟨(hname c hc).ascii, (hname c hc).not_kelvin⟩).1 hlower
    unfold Spells
    rw [lowerBytes_eq h, ← hmap, utf8_of_ascii hs, List.map_map, List.forall₂_map_left_iff,
      List.forall₂_map_right_iff]
    refine List.forall₂_same.2 fun c hc => ?_
    have hcase := isCaseOf_toLower c.toNat (hs c hc)
    rwa [Char.ofNat_toNat] at hcase
  · intro hspells
    obtain ⟨s', hs', hlower⟩ := exists_text_of_spells h hspells
    rwa [utf8_injective hs']

/-! ## The format of an extension -/

theorem ofExtension_utf8 (s : List Char) : ofExtension (utf8 s) =
    match extensions.find? fun entry => entry.1.toList == lowerCase s with
    | some entry => entry.2
    | none => plain := by
  unfold ofExtension
  rw [fromUTF8?_utf8]
  show (match extensions.find? fun entry => entry.1.toList == lowerCase (String.ofList s).toList with
    | some entry => entry.2
    | none => plain) = _
  rw [String.toList_ofList]

theorem ofExtension_of_not_utf8 (h : ∀ s, extension ≠ utf8 s) : ofExtension extension = plain := by
  unfold ofExtension
  rw [fromUTF8?_eq_none h]

/-- Of all bytes those that spell a name of a format stand for it. -/
theorem ofExtension_eq_iff (hformat : format ≠ plain) :
    ofExtension extension = format ↔ ∃ text ∈ names format, Spells extension text := by
  constructor
  · intro h
    by_cases hutf8 : ∃ s, extension = utf8 s
    · obtain ⟨s, rfl⟩ := hutf8
      rw [ofExtension_utf8] at h
      split at h
      case h_2 => exact absurd h.symm hformat
      case h_1 entry hfind =>
        subst h
        have hmem := (mem_names_of_mem_extensions entry (List.mem_of_find?_eq_some hfind)).1
        have hlower : entry.1.toList = lowerCase s := by simpa using List.find?_some hfind
        exact ⟨entry.1, hmem, (lowerCase_eq_iff_spells hmem).1 hlower.symm⟩
    · push Not at hutf8
      exact absurd (ofExtension_of_not_utf8 hutf8) (h ▸ hformat)
  · rintro ⟨text, hmem, hspells⟩
    obtain ⟨s, rfl, hlower⟩ := exists_text_of_spells hmem hspells
    rw [ofExtension_utf8, hlower, find?_extensions hmem]

/-- Letter case makes no difference. -/
theorem ofExtension_congr (h : extension.map lowerByte = extension'.map lowerByte) :
    ofExtension extension = ofExtension extension' := by
  have hsame : ∀ format ≠ plain, ofExtension extension = format ↔ ofExtension extension' = format := by
    intro format hformat
    rw [ofExtension_eq_iff hformat, ofExtension_eq_iff hformat]
    exact exists_congr fun text => and_congr_right fun hmem => by rw [spells_iff hmem, spells_iff hmem, h]
  by_cases hplain : ofExtension extension = plain
  · by_contra hne
    have hplain' : ofExtension extension' ≠ plain := fun h => hne (hplain.trans h.symm)
    exact hne ((hsame _ hplain').2 rfl)
  · exact ((hsame _ hplain).1 rfl).symm

/-! ## The format of a path -/

variable {path : Path} {dir dir' stem stem' name tail tail' : List UInt8}

theorem ofPath_append_trailing (front : List UInt8) (h : IsTrailing tail) :
    ofPath ⟨front ++ tail⟩ = ofPath ⟨front⟩ := by
  unfold ofPath
  rw [extension?_append_trailing front h]

theorem ofExtension_nil : ofExtension [] = plain :=
  (ofExtension_utf8 []).trans (by decide)

/-- What stands in front of the last dot of the last component makes no difference, as long as something does. -/
theorem ofPath_of_lastComponent (h : path.LastComponent (stem ++ dot :: extension)) (hstem : stem ≠ [])
    (hdot : dot ∉ extension) : ofPath path = ofExtension extension := by
  unfold ofPath Path.extension?
  rw [h.fileName?_eq]
  by_cases hdots : stem ++ dot :: extension = [dot] ∨ stem ++ dot :: extension = [dot, dot]
  · -- nothing stands behind the last dot
    have hnil : extension = [] := by
      have hshort : (stem ++ dot :: extension).length ≤ 2 := by
        rcases hdots with hdots | hdots
        · simp [hdots]
        · simp [hdots]
      have hpos := List.length_pos_iff.2 hstem
      rw [List.length_append, List.length_cons] at hshort
      exact List.length_eq_zero_iff.1 (by omega)
    rw [if_pos hdots, hnil, ofExtension_nil]
    rfl
  · have hextension : extensionOf? (stem ++ dot :: extension) = some extension :=
      extensionOf?_eq_some_iff.2 ⟨hdot, stem, hstem, rfl⟩
    rw [if_neg hdots, Option.bind_some, hextension]

/-- The last component of a path tells the format of the file by what stands behind its last dot. -/
theorem ofPath_eq_iff (hformat : format ≠ plain) : ofPath path = format ↔
    ∃ name, path.LastComponent name ∧ name ≠ [dot, dot] ∧
      ∃ stem extension, name = stem ++ dot :: extension ∧ stem ≠ [] ∧ dot ∉ extension ∧
        ∃ text ∈ names format, Spells extension text := by
  constructor
  · intro h
    unfold ofPath at h
    split at h
    case h_2 => exact absurd h.symm hformat
    case h_1 extension hextension =>
      obtain ⟨name, hname, hextension⟩ := Option.bind_eq_some_iff.1 hextension
      obtain ⟨hlast, -, hdots⟩ := fileName?_eq_some_iff.1 hname
      obtain ⟨hdot, stem, hstem, rfl⟩ := extensionOf?_eq_some_iff.1 hextension
      exact ⟨_, hlast, hdots, stem, extension, rfl, hstem, hdot, (ofExtension_eq_iff hformat).1 h⟩
  · rintro ⟨_, hlast, -, stem, extension, rfl, hstem, hdot, hspells⟩
    rw [ofPath_of_lastComponent hlast hstem hdot]
    exact (ofExtension_eq_iff hformat).2 hspells

/-- A dot in front hides a file and starts no extension. -/
theorem ofPath_of_hidden (h : path.LastComponent (dot :: name)) (hdot : dot ∉ name) : ofPath path = plain := by
  by_contra hformat
  obtain ⟨name', hname', -, stem, extension, hsplit, hstem, -⟩ := (ofPath_eq_iff hformat).1 rfl
  obtain ⟨byte, stem, rfl⟩ := List.exists_cons_of_ne_nil hstem
  rw [← h.unique hname', List.cons_append] at hsplit
  refine hdot ?_
  rw [(List.cons.inj hsplit).2]
  simp

theorem ofPath_of_not_utf8 (h : path.LastComponent (stem ++ dot :: extension)) (hdot : dot ∉ extension)
    (hutf8 : ∀ s, extension ≠ utf8 s) : ofPath path = plain := by
  by_cases hstem : stem = []
  · rw [hstem, List.nil_append] at h
    exact ofPath_of_hidden h hdot
  · rw [ofPath_of_lastComponent h hstem hdot, ofExtension_of_not_utf8 hutf8]

/-- The format of a file is told by what stands behind the last dot of the last component of its path, in capital and
small letters of ASCII in any mix. The rest of the path makes no difference, and neither does what trails. Hidden
names and bytes that are not UTF-8 tell no format, and no letters beyond ASCII have the lower case of an extension. -/
theorem ofPath_reads_extension :
    (∀ path : Path, (∃! name, path.LastComponent name) ↔ ¬ IsTrailing path.bytes) ∧
    (∀ (path : Path) (format : Compression), format ≠ plain → (ofPath path = format ↔
      ∃ name, path.LastComponent name ∧ name ≠ [dot, dot] ∧
        ∃ stem extension, name = stem ++ dot :: extension ∧ stem ≠ [] ∧ dot ∉ extension ∧
          ∃ text ∈ names format, Spells extension text)) ∧
    (∀ (path path' : Path) (stem stem' extension extension' : List UInt8),
      path.LastComponent (stem ++ dot :: extension) → path'.LastComponent (stem' ++ dot :: extension') →
      stem ≠ [] → stem' ≠ [] → dot ∉ extension → dot ∉ extension' →
      extension.map lowerByte = extension'.map lowerByte → ofPath path = ofPath path') ∧
    (∀ bytes tail, IsTrailing tail → ofPath ⟨bytes ++ tail⟩ = ofPath ⟨bytes⟩) ∧
    (∀ (path : Path) (name : Name), path.LastComponent (dot :: name) → dot ∉ name → ofPath path = plain) ∧
    (∀ (path : Path) (stem extension : List UInt8), path.LastComponent (stem ++ dot :: extension) →
      dot ∉ extension → (∀ s, extension ≠ utf8 s) → ofPath path = plain) ∧
    ∀ format, ∀ text ∈ names format, ∀ s, lowerCase s = text.toList ↔ Spells (utf8 s) text := by
  refine ⟨fun path => existsUnique_lastComponent, fun path format => ofPath_eq_iff, ?_,
    fun bytes tail => ofPath_append_trailing bytes, fun path name => ofPath_of_hidden,
    fun path stem extension => ofPath_of_not_utf8, fun format text hmem s => lowerCase_eq_iff_spells hmem⟩
  intro path path' stem stem' extension extension' h h' hstem hstem' hdot hdot' hletters
  rw [ofPath_of_lastComponent h hstem hdot, ofPath_of_lastComponent h' hstem' hdot', ofExtension_congr hletters]

/-- The last component of the first path is `dump.sql.Gz`. -/
theorem ofPath_reads_extension_trailing : ofPath (.ofString "d.xz/dump.sql.Gz/./") = gzip ∧
    ofPath (.ofString "x.GZ") = ofPath (.ofString "d.xz/dump.sql.Gz/./") := by
  obtain ⟨-, hformat, hrest, -⟩ := ofPath_reads_extension
  have hpath : Path.ofString "d.xz/dump.sql.Gz/./" =
      ⟨lowerBytes "d.xz/" ++ (lowerBytes "dump.sql" ++ dot :: [0x47, 0x7A]) ++ [slash, dot, slash]⟩ := by decide
  have hpath' : Path.ofString "x.GZ" = ⟨[] ++ ([0x78] ++ dot :: [0x47, 0x5A]) ++ []⟩ := by decide
  have hlast : (Path.ofString "d.xz/dump.sql.Gz/./").LastComponent (lowerBytes "dump.sql" ++ dot :: [0x47, 0x7A]) := by
    rw [hpath]
    exact lastComponent_append (.inr (by decide)) (by decide) (by decide) (.dot (.slash .nil))
  have hlast' : (Path.ofString "x.GZ").LastComponent ([0x78] ++ dot :: [0x47, 0x5A]) := by
    rw [hpath']
    exact lastComponent_append (.inl rfl) (by decide) (by decide) .nil
  have hspells : Spells [0x47, 0x7A] "gz" := by
    show List.Forall₂ IsCaseOf _ [0x67, 0x7A]
    exact .cons (.inr (by decide)) (.cons (.inl rfl) .nil)
  refine ⟨(hformat _ gzip (by decide)).2 ⟨_, hlast, by decide, _, _, rfl, by decide, by decide, "gz", by decide,
    hspells⟩, ?_⟩
  exact hrest _ _ _ _ _ _ hlast' hlast (by decide) (by decide) (by decide) (by decide) (by decide)

end SqlDump.Compression
