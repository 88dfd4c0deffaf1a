import SqlDump.Proofs.Time.Stamp
import SqlDump.Time.Epoch
/-!
# Numbers in digits

The readers accept exactly the texts that stand for a number: `IsDigits` for natural numbers, and
`Numeral` for integers with one sign or none. Leading zeros are allowed, so that a text of any length
can be within the 64 bits of `readInt64?`.
-/

namespace SqlDump.Time

/-- A text of ASCII digits, at least one. -/
def IsDigits (s : List Char) : Prop := s ≠ [] ∧ ∀ c ∈ s, c.isDigit = true

/-- The number that digits stand for. -/
def digitsValue (s : List Char) : Nat := Nat.ofDigitChars 10 s 0

/-- A text that stands for an integer. -/
inductive Numeral : List Char → Int → Prop
  | unsigned {s : List Char} (h : IsDigits s) : Numeral s (digitsValue s)
  | plus {s : List Char} (h : IsDigits s) : Numeral ('+' :: s) (digitsValue s)
  | minus {s : List Char} (h : IsDigits s) : Numeral ('-' :: s) (-digitsValue s)

/-! ## The value of digits -/

theorem IsDigits.append {s t : List Char} (hs : IsDigits s) (ht : ∀ c ∈ t, c.isDigit = true) :
    IsDigits (s ++ t) := by
  refine ⟨by simp [hs.1], fun c hc => ?_⟩
  rcases List.mem_append.1 hc with hc | hc
  · exact hs.2 c hc
  · exact ht c hc

theorem IsDigits.not_sign {c : Char} {s : List Char} (h : IsDigits (c :: s)) : c ≠ '-' ∧ c ≠ '+' := by
  have hc := h.2 c List.mem_cons_self
  constructor
  · rintro rfl
    cases hc
  · rintro rfl
    cases hc

theorem digitsValue_append (s t : List Char) :
    digitsValue (s ++ t) = 10 ^ t.length * digitsValue s + digitsValue t := by
  unfold digitsValue
  rw [Nat.ofDigitChars_append, Nat.ofDigitChars_eq_ofDigitChars_zero]

theorem digit_value_le {c : Char} (h : c.isDigit = true) : c.toNat - '0'.toNat ≤ 9 := by
  simp only [Char.isDigit, Bool.and_eq_true, decide_eq_true_eq] at h
  have hnine : c.toNat ≤ 57 := UInt32.le_iff_toNat_le.1 h.2
  have hzero : '0'.toNat = 48 := rfl
  omega

theorem digitsValue_lt {s : List Char} (hs : ∀ c ∈ s, c.isDigit = true) : digitsValue s < 10 ^ s.length := by
  induction s with
  | nil => exact Nat.one_pos
  | cons c s ih =>
    have hc := digit_value_le (hs c List.mem_cons_self)
    have hrest := ih fun d hd => hs d (List.mem_cons_of_mem c hd)
    have hcons : digitsValue (c :: s) = 10 ^ s.length * (c.toNat - '0'.toNat) + digitsValue s := by
      simpa [digitsValue, Nat.ofDigitChars_cons] using digitsValue_append [c] s
    calc digitsValue (c :: s) < 10 ^ s.length * (c.toNat - '0'.toNat + 1) := by rw [hcons, Nat.mul_succ]; omega
      _ ≤ 10 ^ s.length * 10 := Nat.mul_le_mul_left _ (by omega)
      _ = 10 ^ (c :: s).length := by rw [List.length_cons, Nat.pow_succ]

/-! ## Digits that are written -/

theorem toNat_digit (n : Nat) : (digit n).toNat - '0'.toNat = n % 10 := by
  have key : ∀ r < 10, (Char.ofNat ('0'.toNat + r)).toNat - '0'.toNat = r := by decide
  exact key _ (Nat.mod_lt _ (by decide))

theorem isDigits_twoDigits (n : Nat) : IsDigits (twoDigits n) :=
  ⟨List.cons_ne_nil _ _, fun _ => isDigit_of_mem_twoDigits⟩

theorem isDigits_fourDigits (n : Nat) : IsDigits (fourDigits n) := by
  refine ⟨?_, fun _ => isDigit_of_mem_fourDigits⟩
  unfold fourDigits
  split
  · exact List.cons_ne_nil _ _
  · exact Nat.toDigits_ne_nil

theorem digitsValue_twoDigits (n : Nat) : digitsValue (twoDigits n) = n % 100 := by
  simp only [digitsValue, twoDigits, Nat.ofDigitChars_cons, Nat.ofDigitChars_nil, toNat_digit]
  omega

theorem digitsValue_fourDigits (n : Nat) : digitsValue (fourDigits n) = n := by
  unfold fourDigits
  split
  · rw [digitsValue_append, digitsValue_twoDigits, digitsValue_twoDigits]
    simp only [twoDigits, List.length_cons, List.length_nil]
    omega
  · exact Nat.ofDigitChars_ten_toDigits

theorem four_le_length_fourDigits (n : Nat) : 4 ≤ (fourDigits n).length := by
  unfold fourDigits
  split
  case isTrue => exact Nat.le_refl 4
  case isFalse h =>
    have hlong : ¬ (Nat.toDigits 10 n).length ≤ 3 := by
      rw [Nat.length_toDigits_le_iff (by decide) (by decide)]
      omega
    omega

/-! ## The readers -/

theorem readNat?_eq_some_iff {s : List Char} {n : Nat} :
    readNat? s = some n ↔ IsDigits s ∧ digitsValue s = n := by
  unfold readNat?
  split
  case isTrue h =>
    have hs : IsDigits s := by simpa [IsDigits] using h
    exact ⟨fun hn => ⟨hs, Option.some.inj hn⟩, fun hn => congrArg some hn.2⟩
  case isFalse h =>
    have hs : ¬ IsDigits s := by simpa [IsDigits] using h
    exact ⟨nofun, fun hn => absurd hn.1 hs⟩

theorem readNat?_digits {s : List Char} (h : IsDigits s) : readNat? s = some (digitsValue s) :=
  readNat?_eq_some_iff.2 ⟨h, rfl⟩

theorem numeral_minus_iff {s : List Char} {v : Int} :
    Numeral ('-' :: s) v ↔ IsDigits s ∧ -(digitsValue s : Int) = v := by
  constructor
  · intro h
    cases h with
    | unsigned hs => exact absurd rfl hs.not_sign.1
    | minus hs => exact ⟨hs, rfl⟩
  · rintro ⟨hs, rfl⟩
    exact .minus hs

theorem numeral_plus_iff {s : List Char} {v : Int} :
    Numeral ('+' :: s) v ↔ IsDigits s ∧ (digitsValue s : Int) = v := by
  constructor
  · intro h
    cases h with
    | unsigned hs => exact absurd rfl hs.not_sign.2
    | plus hs => exact ⟨hs, rfl⟩
  · rintro ⟨hs, rfl⟩
    exact .plus hs

theorem numeral_unsigned_iff {s : List Char} {v : Int} (hminus : ∀ t, s ≠ '-' :: t) (hplus : ∀ t, s ≠ '+' :: t) :
    Numeral s v ↔ IsDigits s ∧ (digitsValue s : Int) = v := by
  constructor
  · intro h
    cases h with
    | unsigned hs => exact ⟨hs, rfl⟩
    | plus hs => exact absurd rfl (hplus _)
    | minus hs => exact absurd rfl (hminus _)
  · rintro ⟨hs, rfl⟩
    exact .unsigned hs

/-- Integers of 64 bits are read from their numerals, and from nothing else. -/
theorem readInt64?_eq_some_iff {s : List Char} {v : Int} :
    readInt64? s = some v ↔ Numeral s v ∧ -0x8000000000000000 ≤ v ∧ v < 0x8000000000000000 := by
  unfold readInt64?
  dsimp only
  rw [Option.filter_eq_some_iff]
  split
  case h_1 digits => simp [numeral_minus_iff, Option.bind_eq_some_iff, readNat?_eq_some_iff, and_assoc]
  case h_2 digits => simp [numeral_plus_iff, Option.bind_eq_some_iff, readNat?_eq_some_iff, and_assoc]
  case h_3 hminus hplus =>
    simp [numeral_unsigned_iff hminus hplus, Option.bind_eq_some_iff, readNat?_eq_some_iff, and_assoc]

end SqlDump.Time
