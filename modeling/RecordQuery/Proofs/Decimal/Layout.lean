import RecordQuery.Proofs.Decimal.Shortest

/-!
# The text of a binary value

A value of 64 bits is written by the digits of its shortest decimal, with the point among them if the
value is neither very small nor very large, and with an exponent otherwise. The text of a value is the
one that is laid out so.
-/

namespace RecordQuery

open Decimal

namespace Decimal

/-! ### Decimals without zeros at their end -/

theorem stripZeros_plain {coefficient : Nat} (positive : coefficient ≠ 0) (exponent : Int) :
    (stripZeros coefficient exponent).1 % 10 ≠ 0 := by
  fun_induction stripZeros coefficient exponent with
  | case1 coefficient exponent ends ih => exact ih (by omega)
  | case2 coefficient exponent plain => exact fun zero => plain ⟨positive, zero⟩

/-- A number is a decimal without zeros at its end in one way. -/
theorem eq_of_plain {m m' : ℕ} {k k' : ℤ} (plain : m % 10 ≠ 0) (plain' : m' % 10 ≠ 0)
    (same : (m : ℚ) * 10 ^ k = m' * 10 ^ k') : m = m' ∧ k = k' := by
  wlog order : k ≤ k' generalizing m m' k k'
  · obtain ⟨rfl, rfl⟩ := this plain' plain same.symm (Int.le_of_not_le order)
    exact ⟨rfl, rfl⟩
  obtain ⟨n, rfl⟩ := Int.exists_add_of_le order
  rw [zpow_add₀ (by norm_num), zpow_natCast, mul_left_comm, mul_comm,
    mul_right_inj' (zpow_ne_zero k (by norm_num))] at same
  have whole : m = m' * 10 ^ n := by exact_mod_cast same
  cases n with
  | zero => exact ⟨by rw [whole, pow_zero, mul_one], by simp⟩
  | succ n =>
      rw [pow_succ, ← mul_assoc] at whole
      exact absurd (whole ▸ Nat.mul_mod_left _ 10) plain

end Decimal

/-- An exponent with its sign. -/
def exponentPart (order : ℤ) : List Char :=
  'e' :: (if order < 0 then '-' else '+') :: Nat.toDigits 10 order.natAbs

/-- How digits are laid out, the first of which stands for as many tens as the order says. From 0.00001
up to sixteen digits before the point no exponent is written. -/
inductive LaidOut : List Char → ℤ → List Char → Prop
  | small {digits : List Char} {zeros : ℕ} (near : zeros < 5) :
      LaidOut digits (-zeros - 1) ('0' :: '.' :: (List.replicate zeros '0' ++ digits))
  | whole {digits : List Char} {zeros : ℕ} (near : digits.length + zeros ≤ 16) :
      LaidOut digits (digits.length + zeros - 1)
        (digits ++ List.replicate zeros '0' ++ ['.', '0'])
  | split {front back : List Char} (before : front ≠ []) (behind : back ≠ [])
      (near : front.length ≤ 16) :
      LaidOut (front ++ back) (front.length - 1) (front ++ '.' :: back)
  | single {digit : Char} {order : ℤ} (far : order < -5 ∨ 16 ≤ order) :
      LaidOut [digit] order (digit :: exponentPart order)
  | several {digit : Char} {more : List Char} {order : ℤ} (far : order < -5 ∨ 16 ≤ order)
      (some : more ≠ []) :
      LaidOut (digit :: more) order (digit :: '.' :: (more ++ exponentPart order))

/-- The texts of a value of 64 bits. A zero has one digit on either side of its point. -/
inductive Binary64.WrittenAs (x : Binary64) : String → Prop
  | zero (none : x.magnitude = 0) : WrittenAs x ((if x.negative then "-" else "") ++ "0.0")
  | digits {c m : ℕ} {e k : ℤ} {text : List Char} (shortest : IsShortest x.magnitude c e)
      (same : (m : ℚ) * 10 ^ k = c * 10 ^ e) (plain : m % 10 ≠ 0)
      (laid : LaidOut (Nat.toDigits 10 m) (k + (Nat.toDigits 10 m).length - 1) text) :
      WrittenAs x ((if x.negative then "-" else "") ++ String.ofList text)

namespace FloatLayout

variable {digits text : List Char} {order : ℤ}

/-! ### Layouts -/

theorem placePoint_small (digits : List Char) (zeros : ℕ) :
    placePoint digits (-zeros - 1) = '0' :: '.' :: (List.replicate zeros '0' ++ digits) := by
  have negative : -(zeros : ℤ) - 1 < 0 := by omega
  have count : (-(-(zeros : ℤ) - 1) - 1).toNat = zeros := by omega
  rw [placePoint, if_pos negative, count]
  rfl

theorem placePoint_whole (some : digits ≠ []) (zeros : ℕ) :
    placePoint digits (digits.length + zeros - 1) =
      digits ++ List.replicate zeros '0' ++ ['.', '0'] := by
  have length : 0 < digits.length := List.length_pos_iff.mpr some
  have nonneg : ¬ ((digits.length + zeros : ℤ) - 1 < 0) := by omega
  have count : ((digits.length + zeros : ℤ) - 1).toNat + 1 = digits.length + zeros := by omega
  rw [placePoint, if_neg nonneg]
  dsimp only
  rw [count, List.take_of_length_le (Nat.le_add_right ..),
    List.drop_of_length_le (Nat.le_add_right ..), Nat.add_sub_cancel_left]
  rfl

theorem placePoint_split {front back : List Char} (before : front ≠ []) (behind : back ≠ []) :
    placePoint (front ++ back) (front.length - 1) = front ++ '.' :: back := by
  have length : 0 < front.length := List.length_pos_iff.mpr before
  have nonneg : ¬ ((front.length : ℤ) - 1 < 0) := by omega
  have count : ((front.length : ℤ) - 1).toNat + 1 = front.length := by omega
  rw [placePoint, if_neg nonneg]
  dsimp only
  rw [count, List.take_left, List.drop_left, List.length_append,
    Nat.sub_eq_zero_of_le (Nat.le_add_right ..), List.isEmpty_eq_false_iff.mpr behind]
  simp

theorem placeExponent_single (digit : Char) (order : ℤ) :
    placeExponent [digit] order = digit :: exponentPart order := by
  rw [placeExponent, Nat.repr_eq_ofList_toDigits, String.toList_ofList]
  rfl

theorem placeExponent_several {more : List Char} (some : more ≠ []) (digit : Char) (order : ℤ) :
    placeExponent (digit :: more) order = digit :: '.' :: (more ++ exponentPart order) := by
  rw [placeExponent, Nat.repr_eq_ofList_toDigits, String.toList_ofList]
  simp [List.isEmpty_eq_false_iff.mpr some, exponentPart]

/-- A value is written without an exponent up to a certain order. -/
theorem positional_double (order : ℤ) :
    double.positional order = true ↔ -5 ≤ order ∧ order < 16 := by
  simp [double]

/-- Digits are laid out with a point or with an exponent, by their order. -/
theorem laidOut_iff (some : digits ≠ []) :
    LaidOut digits order text ↔
      text = if double.positional order then placePoint digits order
        else placeExponent digits order := by
  have length : 0 < digits.length := List.length_pos_iff.mpr some
  constructor
  · intro laid
    cases laid with
    | small near => rw [if_pos ((positional_double _).mpr (by omega)), placePoint_small]
    | whole near => rw [if_pos ((positional_double _).mpr (by omega)), placePoint_whole some]
    | split before behind near =>
        have first := List.length_pos_iff.mpr before
        rw [if_pos ((positional_double _).mpr (by omega)), placePoint_split before behind]
    | single far => rw [if_neg (by rw [positional_double]; omega), placeExponent_single]
    | several far others =>
        rw [if_neg (by rw [positional_double]; omega), placeExponent_several others]
  · rintro rfl
    split
    · rename_i near
      obtain ⟨lower, upper⟩ := (positional_double order).mp near
      rcases Int.lt_or_le order 0 with negative | nonneg
      · obtain ⟨zeros, place⟩ := Int.eq_ofNat_of_zero_le (by omega : 0 ≤ -order - 1)
        obtain rfl : order = -zeros - 1 := by omega
        rw [placePoint_small]
        exact .small (by omega)
      · obtain ⟨n, rfl⟩ := Int.eq_ofNat_of_zero_le nonneg
        rcases Nat.lt_or_ge (n + 1) digits.length with inside | beyond
        · have front : (digits.take (n + 1)).length = n + 1 := List.length_take_of_le inside.le
          have before : digits.take (n + 1) ≠ [] := List.length_pos_iff.mp (by omega)
          have behind : digits.drop (n + 1) ≠ [] :=
            List.length_pos_iff.mp (by rw [List.length_drop]; omega)
          have laid := LaidOut.split before behind (by omega)
          rw [← placePoint_split before behind, List.take_append_drop, front] at laid
          rwa [Nat.cast_succ, add_sub_cancel_right] at laid
        · obtain ⟨zeros, split⟩ := Nat.exists_eq_add_of_le beyond
          have place : (n : ℤ) = digits.length + zeros - 1 := by omega
          rw [place, placePoint_whole some]
          exact .whole (by omega)
    · rename_i far
      rw [positional_double] at far
      cases digits with
      | nil => exact absurd rfl some
      | cons digit more =>
          by_cases last : more = []
          · subst last
            rw [placeExponent_single]
            exact .single (by omega)
          · rw [placeExponent_several last]
            exact .several (by omega) last

end FloatLayout

namespace Binary64

open FloatLayout

variable {x : Binary64} {text : String}

theorem sign_append (negative : Bool) (digits : List Char) :
    String.ofList ((if negative then ['-'] else []) ++ digits) =
      (if negative then "-" else "") ++ String.ofList digits := by
  cases negative with
  | true => rw [String.ofList_append]; rfl
  | false => simp

/-- A value other than zero is written by the digits of the decimal that the search finds. -/
theorem write_of_shortest {m : ℕ} {k : ℤ} (positive : x.magnitude ≠ 0)
    (found : shortest .toEven .double x.magnitude = (m, k)) :
    double.write x = (if x.negative then "-" else "") ++ String.ofList
      (if double.positional (k + (Nat.toDigits 10 m).length - 1)
        then placePoint (Nat.toDigits 10 m) (k + (Nat.toDigits 10 m).length - 1)
        else placeExponent (Nat.toDigits 10 m) (k + (Nat.toDigits 10 m).length - 1)) := by
  have nonzero : ¬ x.isZero = true := by rwa [Binary.isZero, beq_iff_eq]
  have search : shortest double.tie .double x.magnitude = (m, k) := found
  rw [FloatLayout.write, if_neg nonzero, search, ← sign_append]
  simp only [Nat.repr_eq_ofList_toDigits, String.toList_ofList]

/-- A value has one text, the one that is written. -/
theorem writtenAs_iff : WrittenAs x text ↔ text = double.write x := by
  by_cases zero : x.magnitude = 0
  · have written : double.write x = (if x.negative then "-" else "") ++ "0.0" := by
      rw [Binary.write_of_isZero double (beq_iff_eq.mpr zero), sign_append]
    rw [written]
    constructor
    · intro own
      cases own with
      | zero none => rfl
      | digits shortest same plain laid =>
          have small := shortest.small
          rw [zero, magnitudeOf_zero] at small
          exact absurd small (not_le.mpr (by positivity))
    · rintro rfl
      exact .zero zero
  · obtain ⟨c, e, short, found⟩ := exists_isShortest (Nat.pos_of_ne_zero zero)
    have positive : c ≠ 0 := by
      rintro rfl
      have reads := rounds_iff.mp short.nearest.member
      rw [Nat.cast_zero, zero_mul, BinaryFormat.nearestTo_zero] at reads
      exact zero reads.symm
    have plain := stripZeros_plain positive e
    have value := value_stripZeros c e
    rw [write_of_shortest zero found]
    generalize stripZeros c e = stripped at *
    obtain ⟨m, k⟩ := stripped
    have some : Nat.toDigits 10 m ≠ [] := Nat.toDigits_ne_nil
    constructor
    · intro own
      cases own with
      | zero none => exact absurd none zero
      | digits shortest same other laid =>
          obtain ⟨rfl, rfl⟩ := shortest.unique short
          obtain ⟨rfl, rfl⟩ := eq_of_plain other plain (same.trans value.symm)
          rw [(laidOut_iff some).mp laid]
    · rintro rfl
      exact .digits short value plain ((laidOut_iff some).mpr rfl)

end Binary64

end RecordQuery
