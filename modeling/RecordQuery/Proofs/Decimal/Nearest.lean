import RecordQuery.Proofs.Decimal.Binary

/-!
# Rounding to the nearest magnitude

The pattern that a quotient is rounded to depends on the quotient alone and not on the way in which it
is written. A magnitude is rounded to its own pattern, so that every whole number of few bits is kept
as it is.
-/

namespace RecordQuery

theorem twoPow_pos (n : Nat) : 0 < twoPow n := Nat.two_pow_pos n

theorem twoPow_add (n m : Nat) : twoPow (n + m) = twoPow n * twoPow m := Nat.pow_add 2 n m

theorem twoPow_succ (n : Nat) : twoPow (n + 1) = 2 * twoPow n := Nat.pow_succ'

theorem twoPow_le_twoPow {n m : Nat} (h : n ≤ m) : twoPow n ≤ twoPow m :=
  Nat.pow_le_pow_right (by decide) h

namespace Tie

variable (tie : Tie)

/-- A quotient that is written with a common factor is rounded like the one without. -/
theorem round_mul_left {k : Nat} (positive : 0 < k) (a b : Nat) :
    tie.round (k * a) (k * b) = tie.round a b := by
  have twice : 2 * (k * a % (k * b)) = k * (2 * (a % b)) := by
    rw [Nat.mul_mod_mul_left, Nat.mul_left_comm]
  simp only [round, Nat.mul_div_mul_left a b positive, twice, Nat.mul_lt_mul_left positive]

/-- A whole quotient is kept. -/
theorem round_mul_right {b : Nat} (positive : 0 < b) (m : Nat) : tie.round (m * b) b = m := by
  simp [round, Nat.mul_div_cancel m positive, positive]

/-- A quotient is rounded to no less than a whole number that it reaches. -/
theorem le_round {a b n : Nat} (positive : 0 < b) (reached : n * b ≤ a) : n ≤ tie.round a b := by
  have floor : n ≤ a / b := (Nat.le_div_iff_mul_le positive).mpr reached
  simp only [round]
  grind

/-- A quotient is rounded beyond a whole number if it lies beyond the middle between that and the next
one, or just on it where the next one is even. -/
theorem lt_round_toEven_iff {b : Nat} (positive : 0 < b) (a m : Nat) :
    m < toEven.round a b ↔
      (2 * m + 1) * b < 2 * a ∨ (2 * m + 1) * b = 2 * a ∧ m % 2 = 1 := by
  have division : b * (a / b) + a % b = a := Nat.div_add_mod a b
  have small : a % b < b := Nat.mod_lt a positive
  have middle : (2 * m + 1) * b = 2 * (b * m) + b := by
    rw [Nat.add_mul, Nat.one_mul, Nat.mul_assoc, Nat.mul_comm m b]
  rcases Nat.lt_trichotomy m (a / b) with below | rfl | above
  · have next : b * (m + 1) ≤ b * (a / b) := Nat.mul_le_mul_left b below
    have beyond : m + 1 ≤ toEven.round a b := toEven.le_round positive (by grind)
    exact iff_of_true beyond (.inl (by grind))
  · simp only [round]
    grind
  · have next : b * (a / b) + b ≤ b * m := Nat.mul_le_mul_left b above
    have ceiling : toEven.round a b ≤ a / b + 1 := BinaryFormat.round_le toEven a b
    exact iff_of_false (by omega) (by omega)

/-- A quotient is rounded to no more than a whole number that it does not exceed. -/
theorem round_toEven_le {a b n : Nat} (positive : 0 < b) (bounded : a ≤ n * b) :
    toEven.round a b ≤ n := by
  refine Nat.le_of_not_lt fun beyond => ?_
  have past := (lt_round_toEven_iff positive a n).mp beyond
  rw [Nat.add_mul, Nat.mul_assoc] at past
  omega

end Tie

namespace BinaryFormat

variable (f : BinaryFormat)

/-- A quotient that is written with a common factor has the same nearest pattern as the one without. -/
theorem nearest_mul_left {k : Nat} (positive : 0 < k) (a b : Nat) :
    f.nearest (k * a) (k * b) = f.nearest a b := by
  simp only [nearest, Nat.mul_assoc, Nat.mul_div_mul_left _ _ positive,
    Tie.round_mul_left _ positive]

/-- Equal quotients have the same nearest pattern. -/
theorem nearest_congr {a b c d : Nat} (hb : 0 < b) (hd : 0 < d) (same : a * d = c * b) :
    f.nearest a b = f.nearest c d := by
  calc f.nearest a b = f.nearest (d * a) (d * b) := (f.nearest_mul_left hd a b).symm
    _ = f.nearest (b * c) (b * d) := by
        rw [Nat.mul_comm d a, same, Nat.mul_comm c b, Nat.mul_comm d b]
    _ = f.nearest c d := f.nearest_mul_left hb c d

/-- The pattern of a significand with as many bits as the format has, or fewer at the lower end. -/
theorem units_of_significand {m shift : Nat} (short : m < 2 * twoPow f.fractionBits)
    (full : shift = 0 ∨ twoPow f.fractionBits ≤ m) :
    f.units (shift * twoPow f.fractionBits + m) = m * twoPow shift := by
  have step := twoPow_pos f.fractionBits
  rcases Nat.lt_or_ge m (twoPow f.fractionBits) with low | high
  · obtain rfl : shift = 0 := full.resolve_right (Nat.not_le.mpr low)
    rw [Nat.zero_mul, Nat.zero_add, units]
    rw [if_pos low]
    exact (Nat.mul_one m).symm
  · obtain ⟨r, rfl⟩ := Nat.exists_eq_add_of_le high
    have small : r < twoPow f.fractionBits := by omega
    have shape : shift * twoPow f.fractionBits + (twoPow f.fractionBits + r) =
        r + (shift + 1) * twoPow f.fractionBits := by
      rw [Nat.add_mul, Nat.one_mul]
      omega
    have beyond : ¬ r + (shift + 1) * twoPow f.fractionBits < twoPow f.fractionBits := by
      rw [Nat.add_mul, Nat.one_mul]
      omega
    rw [shape, units]
    simp only [if_neg beyond, Nat.add_mul_mod_self_right, Nat.mod_eq_of_lt small,
      Nat.add_mul_div_right _ _ step, Nat.div_eq_of_lt small]
    simp

/-- Every pattern is that of a significand. -/
theorem exists_significand (pattern : Nat) :
    ∃ shift m, pattern = shift * twoPow f.fractionBits + m ∧ m < 2 * twoPow f.fractionBits ∧
      (shift = 0 ∨ twoPow f.fractionBits ≤ m) := by
  have step := twoPow_pos f.fractionBits
  rcases Nat.lt_or_ge pattern (twoPow f.fractionBits) with low | high
  · exact ⟨0, pattern, by omega, by omega, .inl rfl⟩
  · have exponent : 1 ≤ pattern / twoPow f.fractionBits := (Nat.one_le_div_iff step).mpr high
    obtain ⟨shift, whole⟩ := Nat.exists_eq_add_of_le exponent
    have small := Nat.mod_lt pattern step
    refine ⟨shift, twoPow f.fractionBits + pattern % twoPow f.fractionBits, ?_, by omega,
      .inr (Nat.le_add_right ..)⟩
    calc pattern
        = twoPow f.fractionBits * (1 + shift) + pattern % twoPow f.fractionBits := by
          rw [← whole, Nat.div_add_mod]
      _ = _ := by
          rw [Nat.mul_add, Nat.mul_one, Nat.mul_comm shift]
          omega

/-- A significand times a power of two that fills the format is rounded to its own pattern. -/
theorem nearest_of_significand {a b m shift : Nat} (positive : 0 < b)
    (value : a * twoPow f.scale = m * twoPow shift * b)
    (short : m < 2 * twoPow f.fractionBits) (full : shift = 0 ∨ twoPow f.fractionBits ≤ m) :
    f.nearest a b = shift * twoPow f.fractionBits + m := by
  have bits : (m * twoPow shift).log2 - f.fractionBits = shift := by
    by_cases zero : m = 0
    · obtain rfl : shift = 0 := full.resolve_right fun le => by
        have := twoPow_pos f.fractionBits
        omega
      simp [zero]
    · have nonzero : m * twoPow shift ≠ 0 :=
        Nat.mul_ne_zero zero (Nat.ne_of_gt (twoPow_pos shift))
      have above : (m * twoPow shift).log2 < f.fractionBits + 1 + shift := by
        rw [Nat.log2_lt nonzero]
        calc m * twoPow shift < twoPow (f.fractionBits + 1) * twoPow shift := by
              rw [twoPow_succ]
              exact Nat.mul_lt_mul_of_pos_right short (twoPow_pos shift)
          _ = twoPow (f.fractionBits + 1 + shift) := (twoPow_add ..).symm
      rcases full with rfl | full
      · omega
      · have below : f.fractionBits + shift ≤ (m * twoPow shift).log2 := by
          rw [Nat.le_log2 nonzero]
          calc twoPow (f.fractionBits + shift)
              = twoPow f.fractionBits * twoPow shift := twoPow_add ..
            _ ≤ m * twoPow shift := Nat.mul_le_mul_right _ full
        omega
  unfold nearest
  dsimp only
  rw [value, Nat.mul_div_cancel _ positive, bits, Nat.mul_assoc m, Nat.mul_comm (twoPow shift) b,
    Tie.round_mul_right _ (Nat.mul_pos positive (twoPow_pos shift))]

/-- A magnitude is rounded to its own pattern, however it is written as a quotient. -/
theorem nearest_of_units {a b pattern : Nat} (positive : 0 < b)
    (value : a * twoPow f.scale = f.units pattern * b) : f.nearest a b = pattern := by
  obtain ⟨shift, m, rfl, short, full⟩ := f.exists_significand pattern
  rw [f.units_of_significand short full] at value
  exact f.nearest_of_significand positive value short full

/-- The magnitude behind that of a significand. -/
theorem units_succ_of_significand {m shift : Nat} (short : m < 2 * twoPow f.fractionBits)
    (full : shift = 0 ∨ twoPow f.fractionBits ≤ m) :
    f.units (shift * twoPow f.fractionBits + m + 1) = (m + 1) * twoPow shift := by
  have step := twoPow_pos f.fractionBits
  rcases Nat.lt_or_eq_of_le (Nat.succ_le_of_lt short) with next | last
  · rw [Nat.add_assoc, f.units_of_significand next (full.imp_right Nat.le_succ_of_le)]
  · have carry : shift * twoPow f.fractionBits + m + 1 =
        (shift + 1) * twoPow f.fractionBits + twoPow f.fractionBits := by
      rw [Nat.add_mul, Nat.one_mul]
      omega
    rw [carry, f.units_of_significand (by omega) (.inr (Nat.le_refl _)), twoPow_succ,
      Nat.mul_left_comm, show m + 1 = 2 * twoPow f.fractionBits from last, Nat.mul_assoc]

/-- A quotient has at most one bit more than the significand to which it is shifted. -/
theorem lt_of_shift {b : Nat} (positive : 0 < b) (scaled : Nat) :
    scaled < 2 * twoPow f.fractionBits *
      (twoPow ((scaled / b).log2 - f.fractionBits) * b) := by
  generalize shifted : (scaled / b).log2 - f.fractionBits = shift
  have bits : scaled / b < twoPow (f.fractionBits + 1 + shift) :=
    calc scaled / b < twoPow ((scaled / b).log2 + 1) := Nat.lt_log2_self
      _ ≤ twoPow (f.fractionBits + 1 + shift) := twoPow_le_twoPow (by omega)
  rw [← twoPow_succ, ← Nat.mul_assoc, ← twoPow_add]
  exact (Nat.div_lt_iff_lt_mul positive).mp bits

/-- A quotient that is shifted fills the significand. -/
theorem le_of_shift {b : Nat} (positive : 0 < b) (scaled : Nat)
    (shifted : (scaled / b).log2 - f.fractionBits ≠ 0) :
    twoPow f.fractionBits * (twoPow ((scaled / b).log2 - f.fractionBits) * b) ≤ scaled := by
  have nonzero : scaled / b ≠ 0 := by
    intro zero
    rw [zero, Nat.log2_zero, Nat.zero_sub] at shifted
    exact shifted rfl
  rw [← Nat.mul_assoc, ← twoPow_add]
  apply (Nat.le_div_iff_mul_le positive).mp
  calc twoPow (f.fractionBits + ((scaled / b).log2 - f.fractionBits))
      = twoPow (scaled / b).log2 := congrArg twoPow (by omega)
    _ ≤ scaled / b := Nat.log2_self_le nonzero

/-- A greater shift outweighs one more bit. -/
theorem two_mul_twoPow_mul_le {shift own : Nat} (less : shift < own) (b : Nat) :
    2 * (twoPow shift * b) ≤ twoPow own * b := by
  rw [← Nat.mul_assoc, ← twoPow_succ]
  exact Nat.mul_le_mul_right b (twoPow_le_twoPow less)

/-- What fills the significand at a greater shift lies beyond every middle at the lesser one. -/
theorem middle_lt_of_fills {m shift own b scaled : Nat} (positive : 0 < b)
    (short : m < 2 * twoPow f.fractionBits) (lower : shift < own)
    (fills : twoPow f.fractionBits * (twoPow own * b) ≤ scaled) :
    (2 * m + 1) * (twoPow shift * b) < 2 * scaled :=
  calc (2 * m + 1) * (twoPow shift * b)
      < 2 * (2 * twoPow f.fractionBits) * (twoPow shift * b) :=
        Nat.mul_lt_mul_of_pos_right (by omega) (Nat.mul_pos (twoPow_pos shift) positive)
    _ = 2 * twoPow f.fractionBits * (2 * (twoPow shift * b)) := by
        rw [Nat.mul_assoc, Nat.mul_left_comm]
    _ ≤ 2 * twoPow f.fractionBits * (twoPow own * b) :=
        Nat.mul_le_mul_left _ (two_mul_twoPow_mul_le lower b)
    _ ≤ 2 * scaled := by
        rw [Nat.mul_assoc]
        exact Nat.mul_le_mul_left 2 fills

/-- What fits the significand at a lesser shift lies before every middle at the greater one. -/
theorem lt_middle_of_fits {m shift own b scaled : Nat} (full : twoPow f.fractionBits ≤ m)
    (higher : own < shift) (fits : scaled < 2 * twoPow f.fractionBits * (twoPow own * b)) :
    2 * scaled < (2 * m + 1) * (twoPow shift * b) :=
  calc 2 * scaled < 2 * (2 * twoPow f.fractionBits * (twoPow own * b)) := by omega
    _ = 2 * twoPow f.fractionBits * (2 * (twoPow own * b)) := Nat.mul_left_comm ..
    _ ≤ (2 * m + 1) * (twoPow shift * b) :=
        Nat.mul_le_mul (by omega) (two_mul_twoPow_mul_le higher b)

/-- A pattern is even just where its significand is. -/
theorem pattern_mod_two (fraction : 0 < f.fractionBits) (shift m : Nat) :
    (shift * twoPow f.fractionBits + m) % 2 = m % 2 := by
  obtain ⟨k, bits⟩ := Nat.exists_eq_add_of_lt fraction
  rw [bits, twoPow_succ, Nat.mul_left_comm, Nat.mul_add_mod]

/-- A quotient is rounded beyond a pattern if it lies beyond the middle between the magnitudes of that
and of the next one, or just on it where the next pattern is even. -/
theorem lt_nearest_iff (fraction : 0 < f.fractionBits) {b : Nat} (positive : 0 < b)
    (a pattern : Nat) :
    pattern < f.nearest a b ↔
      (f.units pattern + f.units (pattern + 1)) * b < 2 * (a * twoPow f.scale) ∨
        (f.units pattern + f.units (pattern + 1)) * b = 2 * (a * twoPow f.scale) ∧
          pattern % 2 = 1 := by
  obtain ⟨shift, m, rfl, short, full⟩ := f.exists_significand pattern
  have middle : (m * twoPow shift + (m + 1) * twoPow shift) * b =
      (2 * m + 1) * (twoPow shift * b) := by
    rw [← Nat.add_mul, Nat.mul_assoc]
    congr 1
    omega
  rw [f.units_succ_of_significand short full, f.units_of_significand short full, middle,
    f.pattern_mod_two fraction]
  unfold nearest
  dsimp only
  generalize a * twoPow f.scale = scaled
  have fits := f.lt_of_shift positive scaled
  have fills := f.le_of_shift positive scaled
  generalize (scaled / b).log2 - f.fractionBits = own at *
  rw [Nat.mul_comm b]
  have step : 0 < twoPow own * b := Nat.mul_pos (twoPow_pos own) positive
  -- A greater exponent outweighs every significand, so only equal ones leave it to the rounding.
  rcases Nat.lt_trichotomy shift own with lower | rfl | higher
  · have filled := Tie.toEven.le_round step (fills (by omega))
    have exponent : (shift + 1) * twoPow f.fractionBits ≤ own * twoPow f.fractionBits :=
      Nat.mul_le_mul_right _ lower
    rw [Nat.add_mul] at exponent
    exact iff_of_true (by omega)
      (.inl (f.middle_lt_of_fills positive short lower (fills (by omega))))
  · rw [← Tie.lt_round_toEven_iff step scaled m]
    exact Nat.add_lt_add_iff_left
  · have carried := Tie.round_toEven_le step (Nat.le_of_lt fits)
    have high : twoPow f.fractionBits ≤ m := full.resolve_left (by omega)
    have exponent : (own + 1) * twoPow f.fractionBits ≤ shift * twoPow f.fractionBits :=
      Nat.mul_le_mul_right _ higher
    rw [Nat.add_mul] at exponent
    have past := f.lt_middle_of_fits high higher fits
    exact iff_of_false (by omega) (by omega)

/-- A whole number that has at most one bit more than the fraction, times a power of two, is a
magnitude. -/
theorem exists_units {m : Nat} (short : m ≤ 2 * twoPow f.fractionBits) (shift : Nat) :
    ∃ pattern, f.units pattern = m * twoPow shift := by
  induction shift generalizing m with
  | zero =>
      rcases Nat.lt_or_eq_of_le short with short | rfl
      · exact ⟨_, f.units_of_significand short (.inl rfl)⟩
      · have step := twoPow_pos f.fractionBits
        refine ⟨1 * twoPow f.fractionBits + twoPow f.fractionBits, ?_⟩
        rw [f.units_of_significand (by omega) (.inr (Nat.le_refl _))]
        simp [twoPow, Nat.mul_comm]
  | succ shift ih =>
      rcases Nat.lt_or_ge m (twoPow f.fractionBits) with low | high
      · obtain ⟨pattern, value⟩ := ih (m := 2 * m) (by omega)
        refine ⟨pattern, ?_⟩
        rw [value, twoPow_succ, Nat.mul_comm 2 m, Nat.mul_assoc]
      · rcases Nat.lt_or_eq_of_le short with short | rfl
        · exact ⟨_, f.units_of_significand short (.inr high)⟩
        · have step := twoPow_pos f.fractionBits
          refine ⟨(shift + 2) * twoPow f.fractionBits + twoPow f.fractionBits, ?_⟩
          rw [f.units_of_significand (by omega) (.inr (Nat.le_refl _)), twoPow_succ (shift + 1),
            Nat.mul_left_comm, Nat.mul_assoc]

/-- Whole numbers that have at most one bit more than the fraction are rounded apart. -/
theorem nearest_injective_of_le {n m : Nat} (hn : n ≤ 2 * twoPow f.fractionBits)
    (hm : m ≤ 2 * twoPow f.fractionBits) (same : f.nearest n 1 = f.nearest m 1) : n = m := by
  obtain ⟨p, exactN⟩ := f.exists_units hn f.scale
  obtain ⟨q, exactM⟩ := f.exists_units hm f.scale
  have ownN : f.nearest n 1 = p := f.nearest_of_units Nat.one_pos (by rw [exactN, Nat.mul_one])
  have ownM : f.nearest m 1 = q := f.nearest_of_units Nat.one_pos (by rw [exactM, Nat.mul_one])
  rw [ownN, ownM] at same
  rw [same, exactM] at exactN
  exact (Nat.eq_of_mul_eq_mul_right (twoPow_pos f.scale) exactN).symm

end BinaryFormat

end RecordQuery
