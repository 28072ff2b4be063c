import RecordQuery.Json

/-!
# Zeros and whole numbers in binary

Two binary values are the same number if they agree once the sign of a zero is removed, and the only
values that are the same number and yet differ are the two zeros, which also differ in their texts.
Whole numbers of 64 bits have a finite binary value.
-/

namespace RecordQuery

namespace Binary

variable {f : BinaryFormat}

theorem sameNumber_iff {x y : Binary f} :
    x.sameNumber y = true ↔ x.unsignedZero = y.unsignedZero := by
  unfold sameNumber
  exact beq_iff_eq

theorem unsignedZero_of_isZero {x : Binary f} (zero : x.isZero = true) :
    x.unsignedZero = { x with negative := false } := by
  rw [unsignedZero, if_pos zero]

theorem unsignedZero_of_not_isZero {x : Binary f} (other : x.isZero = false) :
    x.unsignedZero = x := by
  rw [unsignedZero, if_neg (by simp [other])]

/-- The sign of a zero does not count for whether a value is zero. -/
theorem isZero_unsignedZero (x : Binary f) : x.unsignedZero.isZero = x.isZero := by
  cases zero : x.isZero with
  | true =>
      rw [unsignedZero_of_isZero zero]
      exact zero
  | false => rw [unsignedZero_of_not_isZero zero, zero]

@[simp]
theorem magnitude_unsignedZero (x : Binary f) : x.unsignedZero.magnitude = x.magnitude := by
  unfold unsignedZero
  split <;> rfl

/-- Values agree up to the sign of a zero where their patterns and the signs of their magnitudes do. -/
theorem unsignedZero_eq_iff {x y : Binary f} :
    x.unsignedZero = y.unsignedZero ↔
      x.magnitude = y.magnitude ∧ (x.magnitude = 0 ∨ x.negative = y.negative) := by
  obtain ⟨sign, pattern, finite⟩ := x
  obtain ⟨sign', pattern', finite'⟩ := y
  by_cases same : pattern = pattern'
  · subst same
    by_cases zero : pattern = 0
    · simp [unsignedZero, isZero, zero]
    · simp [unsignedZero, isZero, zero]
  · refine iff_of_false (fun equal => same ?_) fun agree => same agree.1
    simpa using congrArg magnitude equal

/-- The text of a zero is its sign and two digits. -/
theorem write_of_isZero {x : Binary f} (layout : FloatLayout) (zero : x.isZero = true) :
    layout.write x = String.ofList ((if x.negative then ['-'] else []) ++ ['0', '.', '0']) := by
  rw [FloatLayout.write, if_pos zero]

/-- Values that are the same number and have the same text are the same value. -/
theorem eq_of_sameNumber_of_write_eq {x y : Binary f} {layout : FloatLayout}
    (same : x.sameNumber y = true) (text : layout.write x = layout.write y) : x = y := by
  have plain := sameNumber_iff.mp same
  have both : x.isZero = y.isZero := by
    rw [← isZero_unsignedZero x, plain, isZero_unsignedZero y]
  cases zero : y.isZero with
  | false =>
      have zero' := both.trans zero
      rwa [unsignedZero_of_not_isZero zero, unsignedZero_of_not_isZero zero'] at plain
  | true =>
      have zero' := both.trans zero
      rw [write_of_isZero layout zero, write_of_isZero layout zero', String.ofList_inj] at text
      rw [unsignedZero_of_isZero zero, unsignedZero_of_isZero zero'] at plain
      obtain ⟨signX, magnitudeX, finiteX⟩ := x
      obtain ⟨signY, magnitudeY, finiteY⟩ := y
      obtain ⟨-, rfl⟩ := Binary.mk.inj plain
      cases signX <;> cases signY <;> simp at text ⊢

end Binary

namespace BinaryFormat

theorem round_le (tie : Tie) (dividend divisor : Nat) :
    tie.round dividend divisor ≤ dividend / divisor + 1 := by
  simp only [Tie.round]
  split
  · omega
  · split
    · omega
    · cases tie with
      | toEven =>
          dsimp only
          split <;> omega
      | upward => exact Nat.le_refl _

variable (f : BinaryFormat)

/-- The significand of a whole number keeps one bit more than the fraction, rounding up included. -/
theorem round_significand_le (scaled : Nat) :
    Tie.toEven.round scaled (1 * twoPow (scaled.log2 - f.fractionBits)) ≤
      2 * twoPow f.fractionBits := by
  have short : scaled / twoPow (scaled.log2 - f.fractionBits) < twoPow (f.fractionBits + 1) := by
    apply Nat.div_lt_of_lt_mul
    calc scaled < twoPow (scaled.log2 + 1) := Nat.lt_log2_self
      _ ≤ twoPow (scaled.log2 - f.fractionBits + (f.fractionBits + 1)) :=
          Nat.pow_le_pow_right (by decide) (by omega)
      _ = twoPow (scaled.log2 - f.fractionBits) * twoPow (f.fractionBits + 1) :=
          Nat.pow_add 2 _ _
  have double : twoPow (f.fractionBits + 1) = 2 * twoPow f.fractionBits := Nat.pow_succ'
  have := round_le .toEven scaled (1 * twoPow (scaled.log2 - f.fractionBits))
  rw [Nat.one_mul] at this ⊢
  omega

/-- The pattern of a whole number is bounded by its number of bits. -/
theorem nearest_le {n k : Nat} (h : n < twoPow k) :
    f.nearest n 1 ≤ (k + f.scale - 1 - f.fractionBits + 2) * twoPow f.fractionBits := by
  unfold nearest
  dsimp only
  rw [Nat.div_one]
  generalize scaling : n * twoPow f.scale = scaled
  have bits : scaled.log2 ≤ k + f.scale - 1 := by
    by_cases zero : scaled = 0
    · rw [zero, Nat.log2_zero]
      exact Nat.zero_le _
    · have bound : scaled < twoPow (k + f.scale) := by
        rw [← scaling]
        calc n * twoPow f.scale < twoPow k * twoPow f.scale :=
              Nat.mul_lt_mul_of_pos_right h (Nat.two_pow_pos _)
          _ = twoPow (k + f.scale) := (Nat.pow_add 2 _ _).symm
      have := (Nat.log2_lt zero).mpr bound
      omega
  calc (scaled.log2 - f.fractionBits) * twoPow f.fractionBits +
        Tie.toEven.round scaled (1 * twoPow (scaled.log2 - f.fractionBits))
      ≤ (scaled.log2 - f.fractionBits) * twoPow f.fractionBits + 2 * twoPow f.fractionBits :=
          Nat.add_le_add_left (round_significand_le f scaled) _
    _ = (scaled.log2 - f.fractionBits + 2) * twoPow f.fractionBits := (Nat.add_mul _ _ _).symm
    _ ≤ (k + f.scale - 1 - f.fractionBits + 2) * twoPow f.fractionBits :=
          Nat.mul_le_mul_right _ (by omega)

end BinaryFormat

/-- The pattern of zero is finite. -/
theorem infinity_double_pos : 0 < BinaryFormat.double.infinity := by decide

/-- Whole numbers of 64 bits have a finite binary value. -/
theorem Binary.isSome_ofInt?_of_fits64 {n : Int} (h : Number.fits64 n = true) :
    (Binary.ofInt? .double n).isSome = true := by
  have bounds : -9223372036854775808 ≤ n ∧ n ≤ 18446744073709551615 := by
    simpa [Number.fits64] using h
  have size : n.natAbs < twoPow 65 := by
    have : twoPow 65 = 36893488147419103232 := rfl
    omega
  have finite : BinaryFormat.double.nearest n.natAbs 1 < BinaryFormat.double.infinity :=
    Nat.lt_of_le_of_lt (BinaryFormat.nearest_le .double size) (by decide)
  rw [Binary.ofInt?, Binary.nearest?, Binary.ofPattern?, dif_pos finite]
  rfl

end RecordQuery
