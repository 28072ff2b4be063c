import RecordQuery.Proofs.Decimal.Value
import Mathlib.Algebra.Order.Group.Abs
import Mathlib.Order.Monotone.Basic

/-!
# Rounding as a choice among values

Rounding is said here without quotients and shifts: of increasing values the nearest one is chosen, and
of two equally near ones that at the even place. There is at most one such choice, and the nearest
pattern of a number is the choice among all magnitudes.
-/

namespace RecordQuery

/-- Whether the value at a place is nearest to a number among the members, and the place even if another
member is equally near. -/
structure NearestAmong (members : ℕ → Prop) (values : ℕ → ℚ) (x : ℚ) (n : ℕ) : Prop where
  member : members n
  nearest : ∀ m, members m → |x - values n| ≤ |x - values m|
  even : ∀ m, members m → m ≠ n → |x - values n| = |x - values m| → n % 2 = 0

namespace NearestAmong

variable {members : ℕ → Prop} {values : ℕ → ℚ} {x : ℚ} {n m : ℕ}

/-- A number that is equally far from two values lies in the middle between them. -/
theorem add_eq_of_equally_far {y z : ℚ} (apart : y ≠ z) (far : |x - y| = |x - z|) :
    y + z = 2 * x := by
  rcases abs_eq_abs.mp far with same | opposite
  · exact absurd (by linarith) apart
  · linarith

/-- There is only one choice among increasing values where the members have no gaps. -/
theorem unique (increasing : StrictMono values)
    (connected : ∀ k l, members k → members l → k < l → members (k + 1))
    (h : NearestAmong members values x n) (h' : NearestAmong members values x m) : n = m := by
  wlog order : n < m generalizing n m
  · rcases Nat.lt_or_eq_of_le (Nat.not_lt.mp order) with other | same
    · exact (this h' h other).symm
    · exact same.symm
  exfalso
  have far : |x - values n| = |x - values m| :=
    le_antisymm (h.nearest m h'.member) (h'.nearest n h.member)
  have middle := add_eq_of_equally_far (increasing order).ne far
  have evenN := h.even m h'.member order.ne' far
  have evenM := h'.even n h.member order.ne far.symm
  -- Both places are even, so the one between them is nearer.
  have inside := h.nearest (n + 1) (connected n m h.member h'.member order)
  have above : values n < values (n + 1) := increasing (Nat.lt_succ_self n)
  have below : values (n + 1) < values m := increasing (by omega)
  rw [abs_of_nonneg (by linarith)] at inside
  have nearer : |x - values (n + 1)| < x - values n := abs_lt.mpr ⟨by linarith, by linarith⟩
  exact absurd inside (not_le.mpr nearer)

/-- A place is chosen if exactly the earlier ones have their middle to the next one before the number, or
just on it where the next place is even. -/
theorem of_middles (increasing : StrictMono values)
    (middles : ∀ k, k < n ↔ (values k + values (k + 1)) / 2 < x ∨
      (values k + values (k + 1)) / 2 = x ∧ k % 2 = 1) :
    NearestAmong (fun _ => True) values x n := by
  have ahead {m : ℕ} (order : m < n) : values m + values n ≤ 2 * x ∧
      (values m + values n = 2 * x → n % 2 = 0) := by
    obtain ⟨k, rfl⟩ := Nat.exists_eq_succ_of_ne_zero (Nat.ne_zero_of_lt order)
    have upTo : values m ≤ values k := increasing.monotone (Nat.le_of_lt_succ order)
    rcases (middles k).mp (Nat.lt_succ_self k) with past | ⟨on, odd⟩
    · exact ⟨by linarith, fun same => by linarith⟩
    · exact ⟨by linarith, fun _ => by omega⟩
  have behind {m : ℕ} (order : n < m) : 2 * x ≤ values n + values m ∧
      (values n + values m = 2 * x → n % 2 = 0) := by
    have next : values (n + 1) ≤ values m := increasing.monotone order
    have last := (not_congr (middles n)).mp (Nat.lt_irrefl n)
    rw [not_or, not_lt, not_and] at last
    refine ⟨by linarith, fun same => ?_⟩
    have odd := last.2 (by linarith)
    omega
  refine ⟨trivial, fun m _ => ?_, fun m _ other far => ?_⟩
  · rcases Nat.lt_trichotomy m n with order | rfl | order
    · have smaller := increasing order
      exact (abs_le.mpr ⟨by linarith [(ahead order).1], by linarith⟩).trans (le_abs_self _)
    · exact le_rfl
    · have greater := increasing order
      exact (abs_le.mpr ⟨by linarith, by linarith [(behind order).1]⟩).trans (neg_le_abs _)
  · rcases Nat.lt_or_gt_of_ne other with order | order
    · have middle := add_eq_of_equally_far (increasing order).ne far.symm
      exact (ahead order).2 middle
    · have middle := add_eq_of_equally_far (increasing order).ne far
      exact (behind order).2 middle

/-- A place is chosen if its value is nearest on its side of the number and all members lie on that side. -/
theorem of_side (increasing : StrictMono values) (member : members n)
    (beyond : ∀ m, members m → x ≤ values n ∧ n ≤ m ∨ values n ≤ x ∧ m ≤ n) :
    NearestAmong members values x n := by
  have further {m : ℕ} (mem : members m) : |x - values m| = |x - values n| + |values n - values m| := by
    rcases beyond m mem with ⟨side, le⟩ | ⟨side, le⟩
    · have order := increasing.monotone le
      rw [abs_of_nonpos (by linarith), abs_of_nonpos (by linarith), abs_of_nonpos (by linarith)]
      ring
    · have order := increasing.monotone le
      rw [abs_of_nonneg (by linarith), abs_of_nonneg (by linarith), abs_of_nonneg (by linarith)]
      ring
  refine ⟨member, fun m mem => ?_, fun m mem other far => ?_⟩
  · rw [further mem]
    exact le_add_of_nonneg_right (abs_nonneg _)
  · rw [further mem, left_eq_add, abs_eq_zero, sub_eq_zero] at far
    exact absurd (increasing.injective far).symm other

/-- A choice among all places is one among fewer of them. -/
theorem restrict (h : NearestAmong (fun _ => True) values x n) (member : members n) :
    NearestAmong members values x n :=
  ⟨member, fun m _ => h.nearest m trivial, fun m _ => h.even m trivial⟩

/-- A common factor changes no choice. -/
theorem scale {t : ℚ} (positive : 0 < t) (h : NearestAmong members values x n) :
    NearestAmong members (fun m => values m * t) (x * t) n := by
  have distance (m : ℕ) : |x * t - values m * t| = |x - values m| * t := by
    rw [← sub_mul, abs_mul, abs_of_pos positive]
  refine ⟨h.member, fun m mem => ?_, fun m mem other far => ?_⟩
  · rw [distance, distance]
    exact mul_le_mul_of_nonneg_right (h.nearest m mem) positive.le
  · rw [distance, distance] at far
    exact h.even m mem other (mul_right_cancel₀ positive.ne' far)

end NearestAmong

/-- A quotient is rounded to the nearest whole number. -/
theorem Tie.nearestAmong_round {b : Nat} (positive : 0 < b) (a : Nat) :
    NearestAmong (fun _ => True) (fun n => (n : ℚ)) (a / b) (toEven.round a b) := by
  have divisor : (0 : ℚ) < b := Nat.cast_pos.mpr positive
  apply NearestAmong.of_middles Nat.strictMono_cast
  intro k
  have middle : ((k : ℚ) + (k + 1 : ℕ)) / 2 = (2 * k + 1) / 2 := by
    push_cast
    ring
  rw [lt_round_toEven_iff positive, middle, div_lt_div_iff₀ two_pos divisor,
    div_eq_div_iff two_ne_zero divisor.ne', mul_comm (a : ℚ)]
  norm_cast

namespace BinaryFormat

variable (f : BinaryFormat)

/-- Magnitudes increase with their patterns. -/
theorem magnitude_strictMono : StrictMono f.magnitude := by
  apply strictMono_nat_of_lt_succ
  intro pattern
  obtain ⟨shift, m, rfl, short, full⟩ := f.exists_significand pattern
  have scale : (0 : ℚ) < twoPow f.scale := Nat.cast_pos.mpr (twoPow_pos f.scale)
  rw [magnitude, magnitude, f.units_succ_of_significand short full,
    f.units_of_significand short full, div_lt_div_iff_of_pos_right scale, Nat.cast_lt]
  exact Nat.mul_lt_mul_of_pos_right (Nat.lt_succ_self m) (twoPow_pos shift)

/-- The nearest pattern is the choice among all magnitudes. -/
theorem nearestAmong_nearestTo (fraction : 0 < f.fractionBits) (q : ℚ) :
    NearestAmong (fun _ => True) f.magnitude |q| (f.nearestTo q) :=
  NearestAmong.of_middles f.magnitude_strictMono (f.lt_nearestTo_iff fraction q)

end BinaryFormat

namespace Binary64

/-- The magnitude of a pattern of 64 bits, of which 52 are the fraction behind the exponent. -/
def magnitudeOf (pattern : ℕ) : ℚ :=
  if pattern < 2 ^ 52 then pattern * 2 ^ (-1074 : ℤ)
  else (2 ^ 52 + (pattern % 2 ^ 52 : ℕ)) * 2 ^ (((pattern / 2 ^ 52 : ℕ) : ℤ) - 1075)

/-- The rational number that is the value. -/
def value (x : Binary64) : ℚ :=
  if x.negative then -magnitudeOf x.magnitude else magnitudeOf x.magnitude

/-- Whether a rational number is rounded to the magnitude of a pattern, signs aside. -/
def Rounds (q : ℚ) (pattern : ℕ) : Prop := NearestAmong (fun _ => True) magnitudeOf |q| pattern

theorem magnitude_double : BinaryFormat.double.magnitude = magnitudeOf := by
  funext pattern
  have step : twoPow BinaryFormat.double.fractionBits = 2 ^ 52 := rfl
  have scale : BinaryFormat.double.scale = 1074 := by decide
  rw [BinaryFormat.magnitude, BinaryFormat.units, magnitudeOf, step, scale, cast_twoPow]
  split
  · rw [zpow_neg, zpow_ofNat, div_eq_mul_inv]
  · rename_i high
    have exponent : 1 ≤ pattern / 2 ^ 52 := (Nat.one_le_div_iff (by decide)).mpr (Nat.not_lt.mp high)
    have shifted : ((pattern / 2 ^ 52 : ℕ) : ℤ) - 1075 = (pattern / 2 ^ 52 - 1 : ℕ) - 1074 := by
      omega
    rw [shifted, zpow_sub₀ (by norm_num), zpow_natCast, zpow_ofNat, Nat.cast_mul, cast_twoPow,
      mul_div_assoc, Nat.cast_add, Nat.cast_pow, Nat.cast_ofNat]

theorem magnitudeOf_strictMono : StrictMono magnitudeOf :=
  magnitude_double ▸ BinaryFormat.double.magnitude_strictMono

/-- The nearest pattern is the only one that a number is rounded to. -/
theorem rounds_iff {q : ℚ} {pattern : ℕ} :
    Rounds q pattern ↔ BinaryFormat.double.nearestTo q = pattern := by
  have own := BinaryFormat.double.nearestAmong_nearestTo (by decide) q
  rw [magnitude_double] at own
  constructor
  · intro rounds
    exact NearestAmong.unique magnitudeOf_strictMono (fun _ _ _ _ _ => trivial) own rounds
  · rintro rfl
    exact own

theorem magnitudeOf_zero : magnitudeOf 0 = 0 := by
  rw [magnitudeOf, if_pos (by decide), Nat.cast_zero, zero_mul]

theorem magnitudeOf_pos {pattern : ℕ} (positive : pattern ≠ 0) : 0 < magnitudeOf pattern :=
  magnitudeOf_zero ▸ magnitudeOf_strictMono (Nat.pos_of_ne_zero positive)

theorem abs_value (x : Binary64) : |value x| = magnitudeOf x.magnitude := by
  have nonneg : 0 ≤ magnitudeOf x.magnitude :=
    magnitudeOf_zero ▸ magnitudeOf_strictMono.monotone (Nat.zero_le _)
  unfold value
  split
  · rw [abs_neg, abs_of_nonneg nonneg]
  · exact abs_of_nonneg nonneg

/-- A value other than zero is negative just where its sign says so. -/
theorem value_neg_iff {x : Binary64} (positive : x.magnitude ≠ 0) :
    value x < 0 ↔ x.negative = true := by
  have size := magnitudeOf_pos positive
  unfold value
  split
  · rename_i negative
    exact iff_of_true (neg_lt_zero.mpr size) negative
  · rename_i negative
    exact iff_of_false (not_lt.mpr size.le) negative

/-- A value is rounded to itself. -/
theorem rounds_value (x : Binary64) : Rounds (value x) x.magnitude := by
  rw [Rounds, abs_value]
  refine ⟨trivial, fun m _ => ?_, fun m _ other far => ?_⟩
  · rw [sub_self, abs_zero]
    exact abs_nonneg _
  · rw [sub_self, abs_zero, eq_comm, abs_eq_zero, sub_eq_zero] at far
    exact absurd (magnitudeOf_strictMono.injective far).symm other

/-- Values stand for one rational number just if they agree up to the sign of a zero. -/
theorem value_eq_iff {x y : Binary64} : value x = value y ↔ x.unsignedZero = y.unsignedZero := by
  rw [Binary.unsignedZero_eq_iff]
  constructor
  · intro same
    have patterns : x.magnitude = y.magnitude :=
      magnitudeOf_strictMono.injective (by rw [← abs_value, ← abs_value, same])
    refine ⟨patterns, ?_⟩
    by_cases zero : x.magnitude = 0
    · exact .inl zero
    · right
      rw [Bool.eq_iff_iff, ← value_neg_iff zero, same, value_neg_iff (patterns ▸ zero)]
  · rintro ⟨patterns, zero | signs⟩
    · simp [value, ← patterns, zero, magnitudeOf_zero]
    · rw [value, value, patterns, signs]

end Binary64

end RecordQuery
