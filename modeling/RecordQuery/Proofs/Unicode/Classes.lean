import RecordQuery.Unicode.Blank
import RecordQuery.Unicode.Numeric

/-!
# Character classes apart from each other

A blank is never part of a name or of a keyword, so blanks end both. The tables are compared range by
range.
-/

namespace RecordQuery

namespace CodeRanges

/-- A member of a table lies in one of its ranges. -/
theorem exists_range_of_has {ranges : CodeRanges} {n : Nat} (h : ranges.has n = true) :
    ∃ range ∈ ranges, range.1 ≤ n ∧ n ≤ range.2 := by
  induction ranges with
  | nil => simp [has] at h
  | cons range rest ih =>
      obtain ⟨low, high⟩ := range
      simp only [has] at h
      split at h
      · simp at h
      · rename_i notBelow
        split at h
        · rename_i notAbove
          exact ⟨(low, high), by simp, Nat.not_lt.mp notBelow, notAbove⟩
        · obtain ⟨range, mem, bounds⟩ := ih h
          exact ⟨range, List.mem_cons_of_mem _ mem, bounds⟩

/-- Whether every range of one table ends before or begins behind every range of the other. -/
def Apart (a b : CodeRanges) : Prop := ∀ r ∈ a, ∀ t ∈ b, r.2 < t.1 ∨ t.2 < r.1

instance (a b : CodeRanges) : Decidable (Apart a b) :=
  inferInstanceAs (Decidable (∀ r ∈ a, ∀ t ∈ b, r.2 < t.1 ∨ t.2 < r.1))

/-- Tables that are apart have no code point in common. -/
theorem Apart.has_eq_false {a b : CodeRanges} (apart : Apart a b) {n : Nat}
    (h : a.has n = true) : b.has n = false := by
  cases other : b.has n with
  | false => rfl
  | true =>
      obtain ⟨r, memR, lowR, highR⟩ := exists_range_of_has h
      obtain ⟨t, memT, lowT, highT⟩ := exists_range_of_has other
      rcases apart r memR t memT with before | behind
      · omega
      · omega

end CodeRanges

theorem blankRanges_apart_alphabeticRanges16 :
    CodeRanges.Apart blankRanges alphabeticRanges16 := by decide +kernel

theorem blankRanges_apart_alphabeticAdditions17 :
    CodeRanges.Apart blankRanges alphabeticAdditions17 := by decide +kernel

theorem blankRanges_apart_numericRanges16 :
    CodeRanges.Apart blankRanges numericRanges16 := by decide +kernel

theorem blankRanges_apart_numericAdditions17 :
    CodeRanges.Apart blankRanges numericAdditions17 := by decide +kernel

/-- No blank is a letter. -/
theorem isAlphabetic_eq_false_of_isBlank {c : Char} (h : isBlank c = true) :
    isAlphabetic c = false := by
  simp only [isAlphabetic, isAlphabetic16, Bool.or_eq_false_iff]
  exact ⟨blankRanges_apart_alphabeticRanges16.has_eq_false h,
    blankRanges_apart_alphabeticAdditions17.has_eq_false h⟩

/-- No letter is a blank. -/
theorem isBlank_eq_false_of_isAlphabetic {c : Char} (h : isAlphabetic c = true) :
    isBlank c = false := by
  rw [← Bool.not_eq_true]
  intro blank
  rw [isAlphabetic_eq_false_of_isBlank blank] at h
  cases h

/-- No blank stands in a name without quotes. -/
theorem isNameChar_eq_false_of_isBlank {c : Char} (h : isBlank c = true) :
    isNameChar c = false := by
  have underscore : (c == '_') = false := by
    rw [beq_eq_false_iff_ne]
    rintro rfl
    exact absurd h (by decide)
  simp only [isNameChar, isNumeric, isNumeric16, Bool.or_eq_false_iff]
  exact ⟨⟨isAlphabetic_eq_false_of_isBlank h,
    blankRanges_apart_numericRanges16.has_eq_false h,
    blankRanges_apart_numericAdditions17.has_eq_false h⟩, underscore⟩

/-- No character of a name without quotes is a blank. -/
theorem isBlank_eq_false_of_isNameChar {c : Char} (h : isNameChar c = true) :
    isBlank c = false := by
  rw [← Bool.not_eq_true]
  intro blank
  rw [isNameChar_eq_false_of_isBlank blank] at h
  cases h

end RecordQuery
