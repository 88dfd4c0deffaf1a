import SqlDump.Proofs.Time.Numeral
/-!
# The numbers that are times

Every text can stand where an epoch value is looked for, but not every number is one of seconds or
milliseconds that can be written. `epochLiteral_cases` says which texts have a time stamp: only numbers
above the threshold are taken for milliseconds, so that the range reaches a thousand times as far
after 1970 as before it.
-/

namespace SqlDump.Time

theorem secondsOf_eq (value : Int) :
    secondsOf value = if value > 10000000000 then value.tdiv 1000 else value := by
  unfold secondsOf millisThreshold
  split
  case isTrue h => exact (Int.tdiv_eq_ediv_of_nonneg (by omega)).symm
  case isFalse => rfl

/-- Where the seconds of a number can be written. -/
theorem secondsOf_range {value : Int} :
    (earliest ≤ secondsOf value ∧ secondsOf value ≤ latest) ↔
      -8334601228800 ≤ value ∧ value ≤ 8210266876799999 := by
  unfold earliest latest secondsOf millisThreshold
  split <;> omega

theorem epochLiteral_of_numeral (zone : Zone) {s : List Char} {value : Int} (h : Numeral s value)
    (hrange : -8334601228800 ≤ value ∧ value ≤ 8210266876799999) :
    ∃ stamp, zone.format? (secondsOf value) = some stamp ∧
      zone.epochLiteral s = .converted (singleQuoted stamp) := by
  have hread : readInt64? s = some value := readInt64?_eq_some_iff.2 ⟨h, by omega, by omega⟩
  have hformat : zone.format? (secondsOf value) = some (Stamp.ofSeconds (secondsOf value + zone.offset)).text :=
    if_pos (secondsOf_range.2 hrange)
  refine ⟨_, hformat, ?_⟩
  rw [Zone.epochLiteral, hread, Option.bind_some, hformat]

theorem epochLiteral_of_not_numeral (zone : Zone) {s : List Char}
    (h : ¬ ∃ value, Numeral s value ∧ -8334601228800 ≤ value ∧ value ≤ 8210266876799999) :
    zone.epochLiteral s = .fallback (singleQuoted s) := by
  have hnone : ((readInt64? s).bind fun value => zone.format? (secondsOf value)) = none := by
    rw [Option.bind_eq_none_iff]
    intro value hread
    refine if_neg fun hrange => h ⟨value, (readInt64?_eq_some_iff.1 hread).1, ?_⟩
    exact secondsOf_range.1 hrange
  rw [Zone.epochLiteral, hnone]

theorem isConverted_iff (zone : Zone) (s : List Char) :
    (zone.epochLiteral s).isConverted = true ↔
      ∃ value, Numeral s value ∧ -8334601228800 ≤ value ∧ value ≤ 8210266876799999 := by
  by_cases h : ∃ value, Numeral s value ∧ -8334601228800 ≤ value ∧ value ≤ 8210266876799999
  · obtain ⟨value, hnumeral, hrange⟩ := h
    obtain ⟨stamp, -, hliteral⟩ := epochLiteral_of_numeral zone hnumeral hrange
    exact ⟨fun _ => ⟨value, hnumeral, hrange⟩, fun _ => by rw [hliteral]; rfl⟩
  · rw [epochLiteral_of_not_numeral zone h]
    exact ⟨nofun, fun hvalue => absurd hvalue h⟩

/-- The numerals in range become the time stamps of their seconds, and every other text is put in
quotes as it is. The zone does not decide which of the two a text is. -/
theorem epochLiteral_cases (zone : Zone) (s : List Char) :
    ((zone.epochLiteral s).isConverted = true ↔
        ∃ value, Numeral s value ∧ -8334601228800 ≤ value ∧ value ≤ 8210266876799999) ∧
      (∀ value, Numeral s value → -8334601228800 ≤ value → value ≤ 8210266876799999 →
        ∃ stamp, zone.format? (if value > 10000000000 then value.tdiv 1000 else value) = some stamp ∧
          zone.epochLiteral s = .converted (singleQuoted stamp)) ∧
      ((¬ ∃ value, Numeral s value ∧ -8334601228800 ≤ value ∧ value ≤ 8210266876799999) →
        zone.epochLiteral s = .fallback (singleQuoted s)) ∧
      ∀ zone' : Zone, (zone'.epochLiteral s).isConverted = (zone.epochLiteral s).isConverted := by
  refine ⟨isConverted_iff zone s, ?_, epochLiteral_of_not_numeral zone, fun zone' => ?_⟩
  · intro value hnumeral hlow hhigh
    rw [← secondsOf_eq]
    exact epochLiteral_of_numeral zone hnumeral ⟨hlow, hhigh⟩
  · rw [Bool.eq_iff_iff, isConverted_iff, isConverted_iff]

/-- The last milliseconds that can be written, and a sign that nothing follows. -/
theorem epochLiteral_cases_last :
    Numeral "+08210266876799999".toList 8210266876799999 ∧
      (∃ stamp, Zone.localTime.format? (if (8210266876799999 : Int) > 10000000000 then
          (8210266876799999 : Int).tdiv 1000 else 8210266876799999) = some stamp ∧
        Zone.localTime.epochLiteral "+08210266876799999".toList = .converted (singleQuoted stamp)) ∧
      (¬ ∃ value, Numeral "-".toList value ∧ -8334601228800 ≤ value ∧ value ≤ 8210266876799999) ∧
      Zone.localTime.epochLiteral "-".toList = .fallback (singleQuoted "-".toList) := by
  have hnumeral : Numeral "+08210266876799999".toList 8210266876799999 := by
    refine (readInt64?_eq_some_iff.1 ?_).1
    decide +kernel
  have hsign : ¬ ∃ value, Numeral "-".toList value ∧ -8334601228800 ≤ value ∧ value ≤ 8210266876799999 := by
    rintro ⟨value, h, -⟩
    exact (numeral_minus_iff.1 h).1.1 rfl
  exact ⟨hnumeral, (epochLiteral_cases .localTime _).2.1 _ hnumeral (by decide) (by decide), hsign,
    (epochLiteral_cases .localTime _).2.2.1 hsign⟩

end SqlDump.Time
