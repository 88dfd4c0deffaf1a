import Mathlib.Data.List.Basic
import SqlDump.Text.LowerCase
/-!
# Lower case within ASCII

Of the characters beyond ASCII only the Kelvin sign has a small letter in ASCII, and only the capital `I` with a
dot has one among its small letters. So a text of ASCII without `k` is the lower case of no other texts than those
in ASCII (`lowerCase_eq_iff`).
-/

namespace SqlDump.Text

variable {c : Char} {s t : List Char}

theorem lowerChar_of_ascii (h : c.toNat < 128) : lowerChar c = [c.toLower] := if_pos h

theorem lowerCase_of_ascii (h : ∀ c ∈ s, c.toNat < 128) : lowerCase s = s.map Char.toLower := by
  unfold lowerCase
  rw [List.map_eq_flatMap]
  exact List.flatMap_congr fun c hc => lowerChar_of_ascii (h c hc)

/-- The small letters of a range are characters beyond ASCII, save the `k` of the Kelvin sign. -/
theorem capitalRanges_spec : ∀ range ∈ capitalRanges,
    range.first = 0x212A ∧ range.last = 0x212A ∨
      128 ≤ range.small ∧ (range.small + (range.last - range.first) < 0xD800 ∨
        0xDFFF < range.small ∧ range.small + (range.last - range.first) < 0x110000) := by
  decide +kernel

/-- Only the Kelvin sign has a lower case in ASCII without being there itself. -/
theorem ascii_of_lowerChar (hkelvin : c ≠ '\u212A') (h : ∀ d ∈ lowerChar c, d.toNat < 128) : c.toNat < 128 := by
  by_contra hc
  unfold lowerChar at h
  rw [if_neg hc] at h
  split at h
  case isTrue => exact absurd (h '\u0307' (by simp)) (by decide)
  case isFalse =>
  split at h
  case h_2 => exact hc (h c List.mem_cons_self)
  case h_1 n hn =>
    obtain ⟨range, hmem, hsmall⟩ := List.exists_of_findSome?_eq_some hn
    unfold CapitalRange.small? at hsmall
    split at hsmall
    case isFalse => cases hsmall
    case isTrue hin =>
      cases hsmall
      rcases capitalRanges_spec range hmem with ⟨hfirst, hlast⟩ | ⟨hlow, hvalid⟩
      · refine hkelvin (Char.toNat_inj.1 ?_)
        show c.toNat = 0x212A
        omega
      · have hsmall := h _ List.mem_cons_self
        have hchar : (range.small + (c.toNat - range.first)).isValidChar := by
          unfold Nat.isValidChar
          omega
        rw [Char.ofNat, dif_pos hchar] at hsmall
        change range.small + (c.toNat - range.first) < 128 at hsmall
        omega

theorem lowerCase_eq_iff (ht : ∀ c ∈ t, c.toNat < 128 ∧ c ≠ 'k') :
    lowerCase s = t ↔ (∀ c ∈ s, c.toNat < 128) ∧ s.map Char.toLower = t := by
  constructor
  · rintro rfl
    have hascii : ∀ c ∈ s, c.toNat < 128 := by
      intro c hc
      have hlower : ∀ d ∈ lowerChar c, d.toNat < 128 ∧ d ≠ 'k' := fun d hd =>
        ht d (List.mem_flatMap.2 ⟨c, hc, hd⟩)
      refine ascii_of_lowerChar ?_ fun d hd => (hlower d hd).1
      rintro rfl
      exact (hlower 'k' (by decide +kernel)).2 rfl
    exact ⟨hascii, (lowerCase_of_ascii hascii).symm⟩
  · rintro ⟨hascii, rfl⟩
    exact lowerCase_of_ascii hascii

end SqlDump.Text
