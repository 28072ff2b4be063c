import RecordQuery.Decimal.Literal
import RecordQuery.Proofs.Decimal.Nearest
import Mathlib.Algebra.Order.Field.Power
import Mathlib.Tactic.FieldSimp
import Mathlib.Tactic.Linarith
import Mathlib.Tactic.NormNum
import Mathlib.Tactic.Positivity
import Mathlib.Tactic.Ring

/-!
# Rational values of decimals

A decimal stands for a rational number, and what it is read as is decided by that number. Reading rounds
to the nearest magnitude of the format, to the even pattern in the middle between two, and refuses what
lies beyond the last magnitude. The shortcuts that reading takes for very large and very small decimals
change no result.
-/

namespace RecordQuery

theorem cast_twoPow (n : Nat) : (twoPow n : ℚ) = 2 ^ n := by
  rw [twoPow, Nat.pow_eq, Nat.cast_pow, Nat.cast_ofNat]

theorem cast_tenPow (n : Nat) : (tenPow n : ℚ) = 10 ^ n := by
  rw [tenPow, Nat.pow_eq, Nat.cast_pow, Nat.cast_ofNat]

namespace BinaryFormat

variable (f : BinaryFormat)

/-- The magnitude of a pattern. -/
def magnitude (pattern : Nat) : ℚ := f.units pattern / twoPow f.scale

/-- The pattern of the magnitude nearest to that of a rational number. -/
def nearestTo (q : ℚ) : Nat := f.nearest q.num.natAbs q.den

/-- The nearest pattern of a quotient is that of the rational number which the quotient is. -/
theorem nearest_eq_nearestTo {a b : Nat} (positive : 0 < b) {q : ℚ} (value : |q| * b = a) :
    f.nearest a b = f.nearestTo q := by
  have lowest : |q| * q.den = q.num.natAbs := by
    rw [Nat.cast_natAbs, Int.cast_abs, ← Rat.mul_den_eq_num, abs_mul, Nat.abs_cast]
  apply f.nearest_congr positive q.den_pos
  have crossed : (a : ℚ) * q.den = q.num.natAbs * b := by
    rw [← value, ← lowest, mul_right_comm]
  exact_mod_cast crossed

/-- A magnitude is nearest to itself. -/
theorem nearestTo_magnitude (pattern : Nat) : f.nearestTo (f.magnitude pattern) = pattern := by
  have scale : (twoPow f.scale : ℚ) ≠ 0 := Nat.cast_ne_zero.mpr (twoPow_pos f.scale).ne'
  rw [← f.nearest_eq_nearestTo (a := f.units pattern) (twoPow_pos f.scale)]
  · exact f.nearest_of_units (twoPow_pos f.scale) rfl
  · rw [magnitude, abs_of_nonneg (by positivity), div_mul_cancel₀ _ scale]

theorem nearestTo_zero : f.nearestTo 0 = 0 := by
  have zero : f.magnitude 0 = 0 := by
    rw [magnitude, units, if_pos (twoPow_pos f.fractionBits), Nat.cast_zero, zero_div]
  rw [← zero, f.nearestTo_magnitude]

/-- A rational number is rounded beyond a pattern if its magnitude lies beyond the middle between that of
the pattern and the next one, or just on it where the next pattern is even. -/
theorem lt_nearestTo_iff (fraction : 0 < f.fractionBits) (q : ℚ) (pattern : Nat) :
    pattern < f.nearestTo q ↔
      (f.magnitude pattern + f.magnitude (pattern + 1)) / 2 < |q| ∨
        (f.magnitude pattern + f.magnitude (pattern + 1)) / 2 = |q| ∧ pattern % 2 = 1 := by
  have scale : (0 : ℚ) < twoPow f.scale := Nat.cast_pos.mpr (twoPow_pos f.scale)
  have den : (0 : ℚ) < q.den := Nat.cast_pos.mpr q.den_pos
  have size : |q| = q.num.natAbs / q.den := by
    rw [Nat.cast_natAbs, Int.cast_abs, ← Rat.mul_den_eq_num, abs_mul, Nat.abs_cast,
      mul_div_cancel_right₀ _ den.ne']
  have middle : (f.magnitude pattern + f.magnitude (pattern + 1)) / 2 =
      (f.units pattern + f.units (pattern + 1)) / (2 * twoPow f.scale) := by
    rw [magnitude, magnitude]
    field_simp
  rw [nearestTo, f.lt_nearest_iff fraction q.den_pos, middle, size,
    div_lt_div_iff₀ (by positivity) den, div_eq_div_iff (by positivity) den.ne']
  rw [← Nat.cast_lt (α := ℚ), ← Nat.cast_inj (R := ℚ)]
  push_cast
  rw [mul_left_comm]

/-- Rational numbers from the middle between the last magnitude and the next power of two on have no
finite value in the format of 64 bits. -/
theorem infinity_le_nearestTo_double_iff (q : ℚ) :
    double.infinity ≤ double.nearestTo q ↔ 2 ^ 1024 - 2 ^ 970 ≤ |q| := by
  have last : double.infinity = 9218868437227405311 + 1 := by decide
  have middle : (double.magnitude 9218868437227405311 +
      double.magnitude (9218868437227405311 + 1)) / 2 = 2 ^ 1024 - 2 ^ 970 := by
    have below : double.units 9218868437227405311 = 9007199254740991 * twoPow 2045 := by
      decide +kernel
    have above : double.units (9218868437227405311 + 1) = 9007199254740992 * twoPow 2045 := by
      decide +kernel
    have scale : double.scale = 1074 := by decide
    rw [magnitude, magnitude, below, above, scale, Nat.cast_mul, Nat.cast_mul, cast_twoPow,
      cast_twoPow, Nat.cast_ofNat, Nat.cast_ofNat]
    rw [show (2 : ℚ) ^ 2045 = 2 ^ 971 * 2 ^ 1074 from pow_add 2 971 1074,
      show (2 : ℚ) ^ 1024 = 2 ^ 53 * 2 ^ 971 from pow_add 2 53 971,
      show (2 : ℚ) ^ 971 = 2 * 2 ^ 970 from pow_succ' 2 970]
    field_simp
    ring
  rw [last, Nat.succ_le_iff, double.lt_nearestTo_iff (by decide), middle]
  rw [and_iff_left (by decide), ← le_iff_lt_or_eq]

/-- Rational numbers up to half the least positive magnitude are rounded to zero. -/
theorem nearestTo_double_eq_zero {q : ℚ} (small : |q| * 2 ^ 1075 ≤ 1) : double.nearestTo q = 0 := by
  have middle : (double.magnitude 0 + double.magnitude (0 + 1)) / 2 = 1 / 2 ^ 1075 := by
    have zero : double.units 0 = 0 := by decide
    have one : double.units (0 + 1) = 1 := by decide
    have scale : double.scale = 1074 := by decide
    rw [magnitude, magnitude, zero, one, scale, cast_twoPow, pow_succ 2 1074]
    field_simp
    norm_num
  apply Nat.eq_zero_of_not_pos
  rw [double.lt_nearestTo_iff (by decide), middle]
  rintro (beyond | ⟨-, odd⟩)
  · rw [div_lt_iff₀ (by positivity)] at beyond
    exact absurd small (not_le.mpr beyond)
  · exact absurd odd (by decide)

end BinaryFormat

namespace Decimal

/-- The rational number that a decimal stands for, its sign aside. -/
def magnitude (d : Decimal) : ℚ := d.coefficient * 10 ^ d.exponent

/-- The rational number that a decimal stands for. -/
def value (d : Decimal) : ℚ := if d.negative then -d.magnitude else d.magnitude

theorem magnitude_nonneg (d : Decimal) : 0 ≤ d.magnitude := by
  unfold magnitude
  positivity

theorem abs_value (d : Decimal) : |d.value| = d.magnitude := by
  unfold value
  split
  · rw [abs_neg, abs_of_nonneg d.magnitude_nonneg]
  · exact abs_of_nonneg d.magnitude_nonneg

/-- The nearest pattern of a decimal is that of its value. -/
theorem nearestPattern_eq (f : BinaryFormat) (d : Decimal) :
    nearestPattern f d.coefficient d.exponent = f.nearestTo d.value := by
  have size := d.abs_value
  unfold magnitude at size
  unfold nearestPattern
  split
  · rename_i e exponent
    rw [exponent, Int.ofNat_eq_natCast, zpow_natCast] at size
    apply f.nearest_eq_nearestTo Nat.one_pos
    rw [size, Nat.cast_one, mul_one, Nat.cast_mul, cast_tenPow]
  · rename_i e exponent
    rw [exponent, zpow_negSucc] at size
    apply f.nearest_eq_nearestTo (b := tenPow (e + 1)) (Nat.pow_pos (by decide))
    rw [size, cast_tenPow, mul_assoc, inv_mul_cancel₀ (by positivity), mul_one]

/-- A number lies below the power of ten that has one digit more. -/
theorem lt_pow_digitCount (n : Nat) : (n : ℚ) < 10 ^ digitCount n := by
  induction n using Nat.strongRecOn with
  | ind n ih =>
      unfold digitCount
      split
      · rename_i zero
        rw [zero]
        norm_num
      · have rest := ih (n / 10) (by omega)
        have digits : (n : ℚ) ≤ 10 * ((n / 10 : ℕ) : ℚ) + 9 := by
          exact_mod_cast (by omega : n ≤ 10 * (n / 10) + 9)
        have whole : ((n / 10 : ℕ) : ℚ) + 1 ≤ 10 ^ digitCount (n / 10) := by
          exact_mod_cast rest
        rw [pow_succ']
        linarith

/-- A positive number reaches the power of ten that has as many digits. -/
theorem pow_digitCount_le {n : Nat} (positive : n ≠ 0) : (10 : ℚ) ^ digitCount n ≤ 10 * n := by
  induction n using Nat.strongRecOn with
  | ind n ih =>
      unfold digitCount
      rw [if_neg positive]
      by_cases last : n / 10 = 0
      · have one : (1 : ℚ) ≤ n := by exact_mod_cast Nat.one_le_iff_ne_zero.mpr positive
        rw [last, digitCount, if_pos rfl, zero_add, pow_one]
        linarith
      · have rest := ih (n / 10) (by omega) last
        have digits : 10 * ((n / 10 : ℕ) : ℚ) ≤ n := by
          exact_mod_cast (by omega : 10 * (n / 10) ≤ n)
        rw [pow_succ']
        linarith

/-- A decimal of a very low order is rounded to zero. -/
theorem nearestTo_value_of_low {d : Decimal}
    (low : d.exponent + digitCount d.coefficient ≤ -1075) :
    BinaryFormat.double.nearestTo d.value = 0 := by
  apply BinaryFormat.nearestTo_double_eq_zero
  have order : d.magnitude ≤ 10 ^ (-1075 : ℤ) :=
    calc d.magnitude ≤ 10 ^ digitCount d.coefficient * 10 ^ d.exponent :=
          mul_le_mul_of_nonneg_right (lt_pow_digitCount _).le (by positivity)
      _ = 10 ^ (d.exponent + digitCount d.coefficient) := by
          rw [zpow_add₀ (by norm_num), zpow_natCast, mul_comm]
      _ ≤ 10 ^ (-1075 : ℤ) := zpow_le_zpow_right₀ (by norm_num) low
  rw [abs_value]
  calc d.magnitude * 2 ^ 1075 ≤ 10 ^ (-1075 : ℤ) * 10 ^ 1075 :=
        mul_le_mul order (pow_le_pow_left₀ (by norm_num) (by norm_num) _) (by positivity)
          (by positivity)
    _ = 1 := by
        rw [zpow_neg]
        exact inv_mul_cancel₀ (by positivity)

/-- A decimal of a very high order is too large. -/
theorem infinity_le_nearestTo_of_high {d : Decimal} (positive : d.coefficient ≠ 0)
    (high : 1025 < d.exponent + digitCount d.coefficient) :
    BinaryFormat.double.infinity ≤ BinaryFormat.double.nearestTo d.value := by
  rw [BinaryFormat.infinity_le_nearestTo_double_iff, abs_value]
  have order : (10 : ℚ) ^ (1026 : ℤ) ≤ 10 * d.magnitude :=
    calc (10 : ℚ) ^ (1026 : ℤ) ≤ 10 ^ (d.exponent + digitCount d.coefficient) :=
          zpow_le_zpow_right₀ (by norm_num) high
      _ = 10 ^ digitCount d.coefficient * 10 ^ d.exponent := by
          rw [zpow_add₀ (by norm_num), zpow_natCast, mul_comm]
      _ ≤ 10 * d.coefficient * 10 ^ d.exponent :=
          mul_le_mul_of_nonneg_right (pow_digitCount_le positive) (by positivity)
      _ = 10 * d.magnitude := mul_assoc ..
  have shifted : (10 : ℚ) ^ (1026 : ℤ) = 10 * 10 ^ 1025 := by
    rw [show (1026 : ℤ) = ((1025 + 1 : ℕ) : ℤ) from rfl, zpow_natCast, pow_succ']
  rw [shifted] at order
  calc (2 : ℚ) ^ 1024 - 2 ^ 970 ≤ 2 ^ 1024 := sub_le_self _ (by positivity)
    _ ≤ 10 ^ 1024 := pow_le_pow_left₀ (by norm_num) (by norm_num) _
    _ ≤ 10 ^ 1025 := pow_le_pow_right₀ (by norm_num) (by norm_num)
    _ ≤ d.magnitude := le_of_mul_le_mul_left order (by norm_num)

/-- A decimal is read as the value nearest to the rational number that it stands for, unless that is too
large. -/
theorem toBinary?_double (d : Decimal) :
    d.toBinary? .double =
      Binary.ofPattern? .double d.negative (BinaryFormat.double.nearestTo d.value) := by
  have scale : BinaryFormat.double.scale = 1074 := by decide
  have bias : BinaryFormat.double.bias = 1023 := by decide
  unfold toBinary?
  rw [scale, bias, nearestPattern_eq]
  dsimp only
  split
  · rename_i vanishing
    have zero : BinaryFormat.double.nearestTo d.value = 0 := by
      rcases vanishing with none | low
      · have size := d.abs_value
        rw [magnitude, none, Nat.cast_zero, zero_mul, abs_eq_zero] at size
        rw [size, BinaryFormat.nearestTo_zero]
      · exact nearestTo_value_of_low low
    rw [zero]
  · rename_i present
    rw [not_or] at present
    split
    · rename_i high
      have beyond := infinity_le_nearestTo_of_high present.1 high
      rw [Binary.ofPattern?, dif_neg (Nat.not_lt.mpr beyond)]
    · rfl

end Decimal

end RecordQuery
