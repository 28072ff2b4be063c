import RecordQuery.Json
import RecordQuery.Proofs.Decimal.Spelling

/-!
# Written numbers read back

The text of a binary value spells a decimal that is nearest to the value, whichever layout is taken, and
the text of a whole number spells the number itself. So what has been written is read as the same number.
-/

namespace RecordQuery

namespace Decimal

/-! ### Rows of digits -/

theorem digits_repr (n : Nat) : Digits n.repr.toList := by
  intro c mem
  rw [Nat.repr_eq_ofList_toDigits, String.toList_ofList] at mem
  have digit := Nat.isDigit_of_mem_toDigits (by decide) (by decide) mem
  rw [isDigit_iff]
  simpa [Char.isDigit, UInt32.le_iff_toNat_le] using digit

theorem ofDigits_repr (n : Nat) : ofDigits n.repr.toList = n := by
  rw [Nat.repr_eq_ofList_toDigits, String.toList_ofList]
  exact Nat.ofDigitChars_toDigits (by decide) (by decide)

theorem repr_ne_nil (n : Nat) : n.repr.toList ≠ [] := by
  rw [Nat.repr_eq_ofList_toDigits, String.toList_ofList]
  exact Nat.toDigits_ne_nil

theorem Digits.append {s t : List Char} (front : Digits s) (back : Digits t) : Digits (s ++ t) :=
  List.forall_mem_append.mpr ⟨front, back⟩

theorem Digits.take {s : List Char} (all : Digits s) (n : Nat) : Digits (s.take n) :=
  fun c mem => all c (List.mem_of_mem_take mem)

theorem Digits.drop {s : List Char} (all : Digits s) (n : Nat) : Digits (s.drop n) :=
  fun c mem => all c (List.mem_of_mem_drop mem)

theorem digits_zeros (n : Nat) : Digits (List.replicate n '0') := by
  intro c mem
  rw [List.eq_of_mem_replicate mem]
  decide

theorem ofDigits_zeros (n : Nat) : ofDigits (List.replicate n '0') = 0 := by
  induction n with
  | zero => rfl
  | succ n ih =>
      rw [List.replicate_succ', ofDigits_append, ih]
      rfl

/-- A row of digits that is split at a place. -/
theorem ofDigits_take_drop (digits : List Char) {n : Nat} (inside : n ≤ digits.length) :
    (ofDigits (digits.take n) : ℚ) + ofDigits (digits.drop n) / 10 ^ (digits.drop n).length =
      ofDigits digits * 10 ^ ((n : ℤ) - digits.length) := by
  have whole : ofDigits digits =
      10 ^ (digits.drop n).length * ofDigits (digits.take n) + ofDigits (digits.drop n) := by
    rw [← ofDigits_append, List.take_append_drop]
  have power : (n : ℤ) - digits.length = -((digits.drop n).length : ℤ) := by
    rw [List.length_drop]
    omega
  rw [power, zpow_neg, zpow_natCast, whole]
  push_cast
  field_simp

/-! ### Layouts -/

theorem unsigned_digits {digits : List Char} (all : Digits digits) (nonempty : digits ≠ []) :
    Unsigned digits (ofDigits digits) := by
  have spelled := Unsigned.spelled all .none (.inl nonempty) .none
  simpa [ofDigits] using spelled

/-- A point that is placed before all digits, with zeros between. -/
theorem unsigned_leadingZeros {digits : List Char} (all : Digits digits) (zeros : Nat) :
    Unsigned ('0' :: '.' :: List.replicate zeros '0' ++ digits)
      (ofDigits digits * 10 ^ (-(zeros : ℤ) - digits.length)) := by
  have spelled := Unsigned.spelled (digits_zeros 1) (.point ((digits_zeros zeros).append all))
    (.inl (by simp)) .none
  have value : ((ofDigits (List.replicate 1 '0') : ℚ) +
      ofDigits (List.replicate zeros '0' ++ digits) /
        10 ^ (List.replicate zeros '0' ++ digits).length) * 10 ^ (0 : ℤ) =
      ofDigits digits * 10 ^ (-(zeros : ℤ) - digits.length) := by
    rw [ofDigits_append, ofDigits_zeros, ofDigits_zeros, List.length_append, List.length_replicate,
      ← neg_add', ← Nat.cast_add, zpow_neg, zpow_natCast]
    simp [div_eq_mul_inv]
  rw [value, List.append_nil] at spelled
  exact spelled

/-- A point that is placed behind the given number of digits. -/
theorem unsigned_split {digits power : List Char} {e : Int} (all : Digits digits) {n : Nat}
    (positive : 0 < n) (inside : n < digits.length) (raised : ExponentText power e) :
    Unsigned (digits.take n ++ ('.' :: digits.drop n ++ power))
      (ofDigits digits * 10 ^ (e + n - digits.length)) := by
  have some : digits.take n ≠ [] := by
    rw [← List.length_pos_iff, List.length_take]
    omega
  have spelled := Unsigned.spelled (all.take n) (.point (all.drop n)) (.inl some) raised
  rw [ofDigits_take_drop digits inside.le, mul_assoc, ← zpow_add₀ (by norm_num)] at spelled
  rwa [show (n : ℤ) - digits.length + e = e + n - digits.length by ring] at spelled

/-- A point that is placed behind all digits, with zeros between. -/
theorem unsigned_trailingZeros {digits : List Char} (all : Digits digits) (nonempty : digits ≠ [])
    (zeros : Nat) :
    Unsigned (digits ++ List.replicate zeros '0' ++ ['.', '0'])
      (ofDigits digits * 10 ^ zeros) := by
  have spelled := Unsigned.spelled (all.append (digits_zeros zeros)) (.point (digits_zeros 1))
    (.inl (by simp [nonempty])) .none
  have value : ((ofDigits (digits ++ List.replicate zeros '0') : ℚ) +
      ofDigits (List.replicate 1 '0') / 10 ^ (List.replicate 1 '0').length) * 10 ^ (0 : ℤ) =
      ofDigits digits * 10 ^ zeros := by
    rw [ofDigits_append, ofDigits_zeros, ofDigits_zeros, List.length_replicate]
    simp [mul_comm]
  rw [value] at spelled
  exact spelled

/-- Digits with a point after the one of the given order. -/
theorem unsigned_placePoint {digits : List Char} (all : Digits digits) (nonempty : digits ≠ [])
    (order : Int) :
    Unsigned (FloatLayout.placePoint digits order)
      (ofDigits digits * 10 ^ (order + 1 - digits.length)) := by
  unfold FloatLayout.placePoint
  split
  · rename_i small
    have spelled := unsigned_leadingZeros all (-order - 1).toNat
    rwa [show -((-order - 1).toNat : ℤ) = order + 1 by omega] at spelled
  · rename_i large
    obtain ⟨n, rfl⟩ := Int.eq_ofNat_of_zero_le (not_lt.mp large)
    dsimp only
    rw [Int.toNat_natCast]
    rcases Nat.lt_or_ge (n + 1) digits.length with inside | beyond
    · have some : (digits.drop (n + 1)).isEmpty = false := by
        rw [List.isEmpty_eq_false_iff, ← List.length_pos_iff, List.length_drop]
        omega
      have spelled := unsigned_split all (Nat.succ_pos n) inside .none
      rw [some, Nat.sub_eq_zero_of_le inside.le, List.replicate_zero, List.append_nil]
      rwa [List.append_nil, zero_add, Nat.cast_succ] at spelled
    · have spelled := unsigned_trailingZeros all nonempty (n + 1 - digits.length)
      rw [List.take_of_length_le beyond, List.drop_eq_nil_of_le beyond]
      rw [← zpow_natCast, Nat.cast_sub beyond, Nat.cast_add, Nat.cast_one] at spelled
      exact spelled

/-- An exponent with its sign. -/
theorem exponentText_written (order : Int) :
    ExponentText ('e' :: (if order < 0 then '-' else '+') :: order.natAbs.repr.toList) order := by
  have digits := digits_repr order.natAbs
  have nonempty := repr_ne_nil order.natAbs
  split
  · have written := ExponentText.written (.inl rfl) .minus nonempty digits
    rw [ofDigits_repr, if_pos rfl] at written
    rwa [show -(order.natAbs : Int) = order by omega] at written
  · have written := ExponentText.written (.inl rfl) .plus nonempty digits
    rw [ofDigits_repr, if_neg Bool.false_ne_true] at written
    rwa [show (order.natAbs : Int) = order by omega] at written

/-- Digits with a point after the first one, if more follow, and an exponent. -/
theorem unsigned_placeExponent {digits : List Char} (all : Digits digits) (nonempty : digits ≠ [])
    (order : Int) :
    Unsigned (FloatLayout.placeExponent digits order)
      (ofDigits digits * 10 ^ (order + 1 - digits.length)) := by
  have some : 1 ≤ digits.length := List.length_pos_iff.mpr nonempty
  have raised := exponentText_written order
  unfold FloatLayout.placeExponent
  dsimp only
  rcases Nat.lt_or_eq_of_le some with more | one
  · have others : (digits.drop 1).isEmpty = false := by
      rw [List.isEmpty_eq_false_iff, ← List.length_pos_iff, List.length_drop]
      omega
    have spelled := unsigned_split all Nat.one_pos more raised
    rw [others, List.append_assoc]
    exact spelled
  · have spelled := Unsigned.spelled all .none (.inl nonempty) raised
    rw [List.take_of_length_le one.ge, List.drop_eq_nil_of_le one.ge, ← one]
    simpa [ofDigits] using spelled

/-! ### The shortest decimal -/

theorem value_stripZeros (coefficient : Nat) (exponent : Int) :
    ((stripZeros coefficient exponent).1 : ℚ) * 10 ^ (stripZeros coefficient exponent).2 =
      coefficient * 10 ^ exponent := by
  fun_induction stripZeros coefficient exponent with
  | case1 coefficient exponent ends ih =>
      have tenfold : (coefficient : ℚ) = (coefficient / 10 : ℕ) * 10 := by
        exact_mod_cast (by omega : coefficient = coefficient / 10 * 10)
      rw [ih, tenfold, zpow_add₀ (by norm_num), zpow_one]
      ring
  | case2 => rfl

/-- The nearest pattern of a coefficient at a power of ten. -/
theorem nearestPattern_eq_nearestTo (f : BinaryFormat) (coefficient : Nat) (exponent : Int) :
    nearestPattern f coefficient exponent = f.nearestTo (coefficient * 10 ^ exponent) :=
  nearestPattern_eq f ⟨false, coefficient, exponent⟩

theorem nearestTo_of_nearestAt? {tie : Tie} {f : BinaryFormat} {pattern coefficient : Nat}
    {exponent power : Int} (found : nearestAt? tie f pattern exponent = some (coefficient, power)) :
    f.nearestTo (coefficient * 10 ^ power) = pattern := by
  rw [← nearestPattern_eq_nearestTo]
  simp only [nearestAt?] at found
  grind

/-- The exact expansion of a magnitude. -/
theorem magnitude_eq_expansion (f : BinaryFormat) (pattern : Nat) :
    ((f.units pattern * Nat.pow 5 f.scale : ℕ) : ℚ) * 10 ^ (-(f.scale : ℤ)) =
      f.magnitude pattern := by
  have ten : (10 : ℚ) ^ f.scale = 5 ^ f.scale * 2 ^ f.scale := by
    rw [← mul_pow]
    norm_num
  rw [BinaryFormat.magnitude, zpow_neg, zpow_natCast, ten, cast_twoPow, Nat.pow_eq]
  push_cast
  field_simp

/-- The shortest decimal of a magnitude is nearest to it. -/
theorem nearestTo_shortest (tie : Tie) (f : BinaryFormat) (pattern : Nat) :
    f.nearestTo ((shortest tie f pattern).1 * 10 ^ (shortest tie f pattern).2) = pattern := by
  unfold shortest
  dsimp only
  rw [value_stripZeros]
  generalize searched : ((List.range digitLimit).findSome? fun extra : Nat =>
    nearestAt? tie f pattern
      (magnitudeOrder (f.units pattern) (twoPow f.scale) - extra)) = found
  cases found with
  | some decimal =>
      obtain ⟨extra, -, found⟩ := List.exists_of_findSome?_eq_some searched
      exact nearestTo_of_nearestAt? found
  | none =>
      rw [Option.getD_none, magnitude_eq_expansion]
      exact f.nearestTo_magnitude pattern

end Decimal

open Decimal

/-- The text of a binary value spells a decimal of its sign that is nearest to it. -/
theorem FloatLayout.denotes_write {f : BinaryFormat} (layout : FloatLayout) (x : Binary f) :
    ∃ d : Decimal, d.negative = x.negative ∧ f.nearestTo d.value = x.magnitude ∧
      Denotes (layout.write x).toList d.value := by
  have signed : SignText (if x.negative then ['-'] else []) x.negative := by
    cases x.negative with
    | true => exact .minus
    | false => exact .none
  unfold write
  dsimp only
  split
  · rename_i zero
    have zeros := unsigned_trailingZeros (digits_zeros 1) (by simp) 0
    rw [ofDigits_zeros] at zeros
    refine ⟨⟨x.negative, 0, 0⟩, rfl, ?_, ?_⟩
    · rw [← nearestPattern_eq, nearestPattern_eq_nearestTo, beq_iff_eq.mp zero, Nat.cast_zero,
        zero_mul, f.nearestTo_zero]
    · rw [String.toList_ofList, value, magnitude]
      simpa using Denotes.signed signed zeros
  · have nearest := nearestTo_shortest layout.tie f x.magnitude
    generalize shortest layout.tie f x.magnitude = decimal at nearest
    obtain ⟨coefficient, exponent⟩ := decimal
    have digits := digits_repr coefficient
    have some := repr_ne_nil coefficient
    have laid := ofDigits_repr coefficient
    refine ⟨⟨x.negative, coefficient, exponent⟩, rfl, ?_, ?_⟩
    · rw [← nearestPattern_eq, nearestPattern_eq_nearestTo]
      exact nearest
    · rw [String.toList_ofList, value, magnitude]
      refine Denotes.signed signed ?_
      dsimp only
      have order : exponent + (coefficient.repr.toList.length : Int) - 1 + 1 -
          coefficient.repr.toList.length = exponent := by ring
      split
      · have placed := unsigned_placePoint digits some
          (exponent + coefficient.repr.toList.length - 1)
        rwa [laid, order] at placed
      · have placed := unsigned_placeExponent digits some
          (exponent + coefficient.repr.toList.length - 1)
        rwa [laid, order] at placed

/-- The text of a whole number spells the number. -/
theorem Number.denotes_integer (n : Int) : Denotes (toString n).toList n := by
  cases n with
  | ofNat m =>
      have spelled := Denotes.signed .none (unsigned_digits (digits_repr m) (repr_ne_nil m))
      rw [ofDigits_repr] at spelled
      exact spelled
  | negSucc m =>
      have spelled := Denotes.signed .minus
        (unsigned_digits (digits_repr (m + 1)) (repr_ne_nil (m + 1)))
      rw [ofDigits_repr, if_pos rfl] at spelled
      rw [Int.cast_negSucc]
      change Denotes ("-" ++ (m + 1).repr).toList _
      rw [String.toList_append]
      exact spelled

/-- Up to the sign of a zero, what is written of a value of 64 bits is read as the value. -/
theorem FloatLayout.readNumber_write (layout : FloatLayout) (x : Binary64) :
    (readNumber (layout.write x)).map Binary.unsignedZero = some x.unsignedZero := by
  obtain ⟨d, sign, nearest, denotes⟩ := layout.denotes_write x
  have spells := denotes.spells
  rw [String.ofList_toList] at spells
  rw [readNumber_of_spells spells, ← map_unsignedZero_nearest? d, sign, nearest, Binary.ofPattern?,
    dif_pos x.finite]
  rfl

/-- Up to the sign of a zero, the text of a number is read as its nearest value. -/
theorem Number.readNumber_text (n : Number) :
    (readNumber n.text).map Binary.unsignedZero = n.toBinary?.map Binary.unsignedZero := by
  cases n with
  | integer n =>
      have spells := (Number.denotes_integer n).spells
      rw [String.ofList_toList] at spells
      rw [text, readNumber_of_spells spells, toBinary?, Binary.ofInt?_eq_nearest?]
  | float x => exact FloatLayout.readNumber_write .double x

end RecordQuery
