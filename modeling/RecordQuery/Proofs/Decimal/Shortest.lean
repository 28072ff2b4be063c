import RecordQuery.Proofs.Decimal.Rounding
import RecordQuery.Proofs.Decimal.Writing
import Mathlib.Data.Rat.Floor

/-!
# The shortest decimal

What the shortest decimal of a magnitude is, is said here by rounding alone: the coarsest power of ten
of which a multiple is rounded to the magnitude, and the multiple that is nearest to it. There is one
such decimal, and the search over the numbers of digits finds it.

## Implementation notes

The numbers that are rounded to one magnitude have no gaps, so on each power of ten the two multiples
next to the magnitude decide whether any multiple is rounded to it. Seventeen digits suffice, since half
a unit of the last one is less than half the distance to either neighbour.
-/

namespace RecordQuery

namespace BinaryFormat

variable (f : BinaryFormat)

/-- A greater number is rounded to no lesser magnitude. -/
theorem nearestTo_mono (fraction : 0 < f.fractionBits) {q r : ℚ} (le : |q| ≤ |r|) :
    f.nearestTo q ≤ f.nearestTo r := by
  refine Nat.le_of_not_lt fun less => ?_
  rcases (f.lt_nearestTo_iff fraction q _).mp less with past | ⟨on, odd⟩
  · have own := (f.lt_nearestTo_iff fraction r (f.nearestTo r)).mpr (.inl (past.trans_le le))
    exact absurd own (Nat.lt_irrefl _)
  · have own : f.nearestTo r < f.nearestTo r := by
      rw [f.lt_nearestTo_iff fraction r, on]
      exact (lt_or_eq_of_le le).imp id fun same => ⟨same, odd⟩
    exact absurd own (Nat.lt_irrefl _)

/-- What lies between two numbers that are rounded to one magnitude is rounded to it. -/
theorem nearestTo_eq_of_between (fraction : 0 < f.fractionBits) {q r s : ℚ} {pattern : Nat}
    (nonneg : 0 ≤ q) (lower : q ≤ r) (upper : r ≤ s) (hq : f.nearestTo q = pattern)
    (hs : f.nearestTo s = pattern) : f.nearestTo r = pattern := by
  have ascending : |q| ≤ |r| ∧ |r| ≤ |s| := by
    rw [abs_of_nonneg nonneg, abs_of_nonneg (nonneg.trans lower),
      abs_of_nonneg ((nonneg.trans lower).trans upper)]
    exact ⟨lower, upper⟩
  exact Nat.le_antisymm (hs ▸ f.nearestTo_mono fraction ascending.2)
    (hq ▸ f.nearestTo_mono fraction ascending.1)

theorem magnitude_nonneg (pattern : Nat) : 0 ≤ f.magnitude pattern := by
  unfold magnitude
  positivity

end BinaryFormat

namespace Decimal

/-! ### One power of ten -/

section Level

variable (f : BinaryFormat) (pattern : Nat) (exponent : Int)

/-- Whether a multiple of the power of ten is rounded to the magnitude. -/
def ReadsBack (coefficient : ℕ) : Prop := f.nearestTo (coefficient * 10 ^ exponent) = pattern

/-- A power of ten as a quotient of two without signs in their exponents. -/
theorem ten_zpow_eq_div (e : Int) : (10 : ℚ) ^ e = 10 ^ e.toNat / 10 ^ (-e).toNat := by
  rw [← zpow_natCast, ← zpow_natCast, ← zpow_sub₀ (by norm_num)]
  congr 1
  omega

/-- The quotient that is rounded is that of the magnitude and the power of ten. -/
theorem quotient_eq :
    ((f.units pattern * tenPow (-exponent).toNat : ℕ) : ℚ) /
        (twoPow f.scale * tenPow exponent.toNat : ℕ) =
      f.magnitude pattern / 10 ^ exponent := by
  rw [ten_zpow_eq_div exponent, BinaryFormat.magnitude, Nat.cast_mul, Nat.cast_mul, cast_tenPow,
    cast_tenPow, div_div_div_eq]

variable {f pattern exponent} {c c' : ℕ}

theorem readsBack_of_between (fraction : 0 < f.fractionBits) {b : ℕ}
    (reads : ReadsBack f pattern exponent c)
    (between : c ≤ b ∧ b * (10 : ℚ) ^ exponent ≤ f.magnitude pattern ∨
      b ≤ c ∧ f.magnitude pattern ≤ b * (10 : ℚ) ^ exponent) :
    ReadsBack f pattern exponent b := by
  have unit : (0 : ℚ) < 10 ^ exponent := by positivity
  rcases between with ⟨le, below⟩ | ⟨le, above⟩
  · exact f.nearestTo_eq_of_between fraction (by positivity)
      (mul_le_mul_of_nonneg_right (Nat.cast_le.mpr le) unit.le) below reads
      (f.nearestTo_magnitude pattern)
  · exact f.nearestTo_eq_of_between fraction (f.magnitude_nonneg pattern) above
      (mul_le_mul_of_nonneg_right (Nat.cast_le.mpr le) unit.le) (f.nearestTo_magnitude pattern)
      reads

/-- If any multiple is rounded to the magnitude, so is one of the two next to it. -/
theorem readsBack_or_succ (fraction : 0 < f.fractionBits) {b : ℕ}
    (lower : b * (10 : ℚ) ^ exponent ≤ f.magnitude pattern)
    (upper : f.magnitude pattern ≤ (b + 1 : ℕ) * (10 : ℚ) ^ exponent)
    (reads : ReadsBack f pattern exponent c) :
    ReadsBack f pattern exponent b ∨ ReadsBack f pattern exponent (b + 1) := by
  rcases Nat.lt_or_ge b c with above | below
  · exact .inr (readsBack_of_between fraction reads (.inr ⟨above, upper⟩))
  · exact .inl (readsBack_of_between fraction reads (.inl ⟨below, lower⟩))

/-- A quotient is rounded to the whole number before it or to the one behind it. -/
theorem round_eq_or (tie : Tie) (a b : Nat) :
    tie.round a b = a / b ∨ tie.round a b = a / b + 1 := by
  simp only [Tie.round]
  split
  · exact .inl rfl
  · split
    · exact .inr rfl
    · cases tie with
      | toEven =>
          dsimp only
          split
          · exact .inl rfl
          · exact .inr rfl
      | upward => exact .inr rfl

theorem multiples_strictMono (exponent : Int) :
    StrictMono fun c : ℕ => (c : ℚ) * 10 ^ exponent :=
  Nat.strictMono_cast.mul_const (by positivity)

/-- Where the nearest multiple is not rounded to the magnitude, its neighbour on the other side of the
magnitude is the nearest one of those that are. -/
theorem nearestAmong_neighbour (fraction : 0 < f.fractionBits) {b : ℕ}
    (lower : b * (10 : ℚ) ^ exponent ≤ f.magnitude pattern)
    (upper : f.magnitude pattern ≤ (b + 1 : ℕ) * (10 : ℚ) ^ exponent)
    (sides : c = b ∧ c' = b + 1 ∨ c = b + 1 ∧ c' = b) (refused : ¬ ReadsBack f pattern exponent c)
    (reads : ReadsBack f pattern exponent c') :
    NearestAmong (ReadsBack f pattern exponent) (fun c => c * 10 ^ exponent)
      (f.magnitude pattern) c' := by
  apply NearestAmong.of_side (multiples_strictMono exponent) reads
  intro m member
  rcases sides with ⟨rfl, rfl⟩ | ⟨rfl, rfl⟩
  · refine .inl ⟨upper, Nat.lt_of_not_le fun le => refused ?_⟩
    exact readsBack_of_between fraction member (.inl ⟨le, lower⟩)
  · refine .inr ⟨lower, Nat.le_of_lt_succ (Nat.lt_of_not_le fun le => refused ?_)⟩
    exact readsBack_of_between fraction member (.inr ⟨le, upper⟩)

/-- On a power of ten the search finds the nearest of the multiples that are rounded to the magnitude, if
there are any. -/
theorem nearestAt?_cases (fraction : 0 < f.fractionBits) (pattern : Nat) (exponent : Int) :
    (∃ c, nearestAt? .toEven f pattern exponent = some (c, exponent) ∧
      NearestAmong (ReadsBack f pattern exponent) (fun c => c * 10 ^ exponent)
        (f.magnitude pattern) c) ∨
    nearestAt? .toEven f pattern exponent = none ∧ ∀ c, ¬ ReadsBack f pattern exponent c := by
  have unit : (0 : ℚ) < 10 ^ exponent := by positivity
  have quotient := quotient_eq f pattern exponent
  have divisor : 0 < twoPow f.scale * tenPow exponent.toNat :=
    Nat.mul_pos (twoPow_pos _) (Nat.pow_pos (by decide))
  have reads (c : ℕ) : (nearestPattern f c exponent == pattern) = true ↔
      ReadsBack f pattern exponent c := by
    rw [beq_iff_eq, nearestPattern_eq_nearestTo]
    rfl
  simp only [nearestAt?]
  generalize f.units pattern * tenPow (-exponent).toNat = a at *
  generalize twoPow f.scale * tenPow exponent.toNat = b at *
  have rounded := (Tie.nearestAmong_round divisor a).scale unit
  rw [quotient, div_mul_cancel₀ _ unit.ne'] at rounded
  have lower : ((a / b : ℕ) : ℚ) * 10 ^ exponent ≤ f.magnitude pattern := by
    rw [← le_div_iff₀ unit, ← quotient, le_div_iff₀ (Nat.cast_pos.mpr divisor)]
    exact_mod_cast Nat.div_mul_le_self a b
  have upper : f.magnitude pattern ≤ (a / b + 1 : ℕ) * 10 ^ exponent := by
    rw [← div_le_iff₀ unit, ← quotient, div_le_iff₀ (Nat.cast_pos.mpr divisor)]
    exact_mod_cast (Nat.lt_mul_of_div_lt (Nat.lt_succ_self _) divisor).le
  have sides : Tie.toEven.round a b = a / b ∧
        (if Tie.toEven.round a b = a / b then a / b + 1 else a / b) = a / b + 1 ∨
      Tie.toEven.round a b = a / b + 1 ∧
        (if Tie.toEven.round a b = a / b then a / b + 1 else a / b) = a / b := by
    rcases round_eq_or .toEven a b with same | next
    · exact .inl ⟨same, if_pos same⟩
    · exact .inr ⟨next, if_neg (by omega)⟩
  generalize (if Tie.toEven.round a b = a / b then a / b + 1 else a / b) = other at *
  generalize Tie.toEven.round a b = nearest at *
  by_cases own : ReadsBack f pattern exponent nearest
  · rw [if_pos ((reads _).mpr own)]
    exact .inl ⟨nearest, rfl, rounded.restrict own⟩
  · rw [if_neg (own ∘ (reads _).mp)]
    by_cases neighbour : ReadsBack f pattern exponent other
    · rw [if_pos ((reads _).mpr neighbour)]
      exact .inl ⟨other, rfl, nearestAmong_neighbour fraction lower upper sides own neighbour⟩
    · rw [if_neg (neighbour ∘ (reads _).mp)]
      refine .inr ⟨rfl, fun c member => ?_⟩
      have next := readsBack_or_succ fraction lower upper member
      rcases sides with ⟨rfl, rfl⟩ | ⟨rfl, rfl⟩
      · exact next.elim own neighbour
      · exact next.elim neighbour own

end Level

/-! ### The order of magnitude -/

/-- A positive quotient lies between ten to the power of its order and ten times that. -/
theorem magnitudeOrder_spec {a b : Nat} (ha : a ≠ 0) (hb : b ≠ 0) :
    (10 : ℚ) ^ magnitudeOrder a b ≤ a / b ∧ (a / b : ℚ) < 10 ^ (magnitudeOrder a b + 1) := by
  have divisor : (0 : ℚ) < b := Nat.cast_pos.mpr (Nat.pos_of_ne_zero hb)
  have ten : (10 : ℚ) ≠ 0 := by norm_num
  have powers (n m : ℕ) : (10 : ℚ) ^ ((n : ℤ) - m) = 10 ^ n / 10 ^ m := by
    rw [zpow_sub₀ ten, zpow_natCast, zpow_natCast]
  have upper : (a / b : ℚ) < 10 ^ ((digitCount a : ℤ) - digitCount b + 1) := by
    rw [zpow_add_one₀ ten, powers, div_mul_eq_mul_div, div_lt_div_iff₀ divisor (by positivity)]
    calc (a : ℚ) * 10 ^ digitCount b ≤ a * (10 * b) :=
          mul_le_mul_of_nonneg_left (pow_digitCount_le hb) (Nat.cast_nonneg a)
      _ < 10 ^ digitCount a * (10 * b) :=
          mul_lt_mul_of_pos_right (lt_pow_digitCount a) (by positivity)
      _ = 10 ^ digitCount a * 10 * b := (mul_assoc ..).symm
  have lower : (10 : ℚ) ^ ((digitCount a : ℤ) - digitCount b - 1) ≤ a / b := by
    rw [zpow_sub_one₀ ten, powers, ← div_eq_mul_inv, div_div, div_le_div_iff₀ (by positivity) divisor]
    calc (10 : ℚ) ^ digitCount a * b ≤ 10 * a * b :=
          mul_le_mul_of_nonneg_right (pow_digitCount_le ha) divisor.le
      _ ≤ 10 * a * 10 ^ digitCount b :=
          mul_le_mul_of_nonneg_left (lt_pow_digitCount b).le (by positivity)
      _ = a * (10 ^ digitCount b * 10) := by ring
  have test (guess : ℤ) : b * tenPow guess.toNat ≤ a * tenPow (-guess).toNat ↔
      (10 : ℚ) ^ guess ≤ a / b := by
    rw [ten_zpow_eq_div, div_le_div_iff₀ (by positivity) divisor, ← cast_tenPow, ← cast_tenPow,
      mul_comm b]
    exact_mod_cast Iff.rfl
  unfold magnitudeOrder
  dsimp only
  split
  · rename_i reached
    exact ⟨(test _).mp reached, upper⟩
  · rename_i missed
    rw [test, not_le] at missed
    exact ⟨lower, by rwa [sub_add_cancel]⟩

/-! ### Numbers close to a magnitude -/

/-- A magnitude is at most as many times its distance from the one before as there are significands. -/
theorem magnitude_succ_le (f : BinaryFormat) (pattern : Nat) :
    f.magnitude (pattern + 1) ≤
      (f.magnitude (pattern + 1) - f.magnitude pattern) * (2 * twoPow f.fractionBits) := by
  obtain ⟨shift, m, rfl, short, full⟩ := f.exists_significand pattern
  have scale : (0 : ℚ) < twoPow f.scale := Nat.cast_pos.mpr (twoPow_pos f.scale)
  have significand : ((m + 1 : ℕ) : ℚ) ≤ 2 * twoPow f.fractionBits := by exact_mod_cast short
  rw [BinaryFormat.magnitude, BinaryFormat.magnitude, f.units_succ_of_significand short full,
    f.units_of_significand short full, ← sub_div, div_mul_eq_mul_div,
    div_le_div_iff_of_pos_right scale, Nat.cast_mul, Nat.cast_mul, ← sub_mul, Nat.cast_succ,
    add_sub_cancel_left, one_mul, mul_comm (twoPow shift : ℚ), ← Nat.cast_succ]
  exact mul_le_mul_of_nonneg_right significand (Nat.cast_nonneg _)

/-- A number is rounded to a magnitude that it differs from by a small part of it. -/
theorem nearestTo_of_close {f : BinaryFormat} (fraction : 0 < f.fractionBits) {pattern : Nat}
    (positive : 0 < pattern) {q : ℚ}
    (close : |q - f.magnitude pattern| * (4 * twoPow f.fractionBits) < f.magnitude pattern) :
    f.nearestTo q = pattern := by
  obtain ⟨before, rfl⟩ := Nat.exists_eq_succ_of_ne_zero positive.ne'
  have step : (1 : ℚ) ≤ twoPow f.fractionBits := by exact_mod_cast twoPow_pos f.fractionBits
  have behind := magnitude_succ_le f before
  have ahead := (f.magnitude_strictMono (Nat.lt_succ_self (before + 1))).le.trans
    (magnitude_succ_le f (before + 1))
  have half {gap : ℚ} (wide : f.magnitude (before + 1) ≤ gap * (2 * twoPow f.fractionBits)) :
      |q - f.magnitude (before + 1)| < gap / 2 := by
    apply lt_of_mul_lt_mul_right (close.trans_le (wide.trans_eq _)) (by linarith)
    ring
  have below := (abs_lt.mp (half behind)).1
  have above := (abs_lt.mp (half ahead)).2
  have nonneg := f.magnitude_nonneg before
  have increases : f.magnitude before < f.magnitude (before + 1) :=
    f.magnitude_strictMono (Nat.lt_succ_self before)
  have size : |q| = q := abs_of_nonneg (by linarith)
  apply Nat.le_antisymm
  · refine Nat.le_of_not_lt fun beyond => ?_
    rw [f.lt_nearestTo_iff fraction, size] at beyond
    rcases beyond with past | ⟨on, -⟩ <;> linarith
  · rw [Nat.succ_le_iff, f.lt_nearestTo_iff fraction, size]
    exact .inl (by linarith)

/-- A multiple of a unit lies within half a unit. -/
theorem exists_near_multiple {x unit : ℚ} (nonneg : 0 ≤ x) (positive : 0 < unit) :
    ∃ c : ℕ, |c * unit - x| ≤ unit / 2 := by
  have whole : x = x / unit * unit := (div_mul_cancel₀ x positive.ne').symm
  have shifted : 0 ≤ x / unit + 1 / 2 := by positivity
  have lower := mul_le_mul_of_nonneg_right (Nat.floor_le shifted) positive.le
  have upper := mul_le_mul_of_nonneg_right (Nat.lt_floor_add_one (x / unit + 1 / 2)).le positive.le
  rw [add_mul, ← whole] at lower upper
  exact ⟨Nat.floor (x / unit + 1 / 2), abs_sub_le_iff.mpr ⟨by linarith, by linarith⟩⟩

/-- Among the multiples of a unit of the seventeenth digit one is rounded to the magnitude. -/
theorem exists_readsBack {pattern : Nat} {order : ℤ} (positive : 0 < pattern)
    (reached : (10 : ℚ) ^ order ≤ BinaryFormat.double.magnitude pattern) :
    ∃ c, ReadsBack .double pattern (order - 16) c := by
  have unit : (0 : ℚ) < 10 ^ (order - 16) := by positivity
  have small : (10 : ℚ) ^ (order - 16) * 10 ^ 16 ≤ BinaryFormat.double.magnitude pattern := by
    rwa [zpow_sub₀ (by norm_num), zpow_ofNat, div_mul_cancel₀ _ (by norm_num)]
  obtain ⟨c, near⟩ :=
    exists_near_multiple (BinaryFormat.double.magnitude_nonneg pattern) unit
  refine ⟨c, nearestTo_of_close (by decide) positive ?_⟩
  have bits : (4 * twoPow BinaryFormat.double.fractionBits : ℚ) = 2 ^ 54 := by
    rw [cast_twoPow, show BinaryFormat.double.fractionBits = 52 from rfl]
    norm_num
  calc |c * 10 ^ (order - 16) - BinaryFormat.double.magnitude pattern| *
        (4 * twoPow BinaryFormat.double.fractionBits)
      ≤ 10 ^ (order - 16) / 2 * 2 ^ 54 := by
        rw [bits]
        exact mul_le_mul_of_nonneg_right near (by positivity)
    _ < 10 ^ (order - 16) * 10 ^ 16 := by linarith
    _ ≤ BinaryFormat.double.magnitude pattern := small

/-! ### The decimal that is found -/

/-- The shortest decimal of a magnitude of 64 bits. Its power of ten does not exceed the magnitude, and is
the greatest of which a multiple is rounded to the magnitude. The decimal is the multiple nearest to the
magnitude of those that are, an even multiple if another one is equally near. -/
structure IsShortest (pattern coefficient : ℕ) (exponent : ℤ) : Prop where
  small : (10 : ℚ) ^ exponent ≤ Binary64.magnitudeOf pattern
  nearest : NearestAmong (fun c => Binary64.Rounds (c * 10 ^ exponent) pattern)
    (fun c => c * 10 ^ exponent) (Binary64.magnitudeOf pattern) coefficient
  coarsest : ∀ e, exponent < e → (10 : ℚ) ^ e ≤ Binary64.magnitudeOf pattern →
    ∀ c : ℕ, ¬ Binary64.Rounds (c * 10 ^ e) pattern

/-- A magnitude has one shortest decimal. -/
theorem IsShortest.unique {pattern c c' : ℕ} {e e' : ℤ} (h : IsShortest pattern c e)
    (h' : IsShortest pattern c' e') : c = c' ∧ e = e' := by
  rcases lt_trichotomy e e' with order | rfl | order
  · exact absurd h'.nearest.member (h.coarsest e' order h'.small c')
  · refine ⟨NearestAmong.unique (multiples_strictMono e) ?_ h.nearest h'.nearest, rfl⟩
    intro k l readsK readsL order
    have unit : (0 : ℚ) ≤ 10 ^ e := by positivity
    rw [Binary64.rounds_iff] at *
    refine BinaryFormat.double.nearestTo_eq_of_between (by decide) (by positivity) ?_ ?_ readsK readsL
    · exact mul_le_mul_of_nonneg_right (Nat.cast_le.mpr (Nat.le_succ k)) unit
    · exact mul_le_mul_of_nonneg_right (Nat.cast_le.mpr order) unit
  · exact absurd h.nearest.member (h'.coarsest e order h.small c)

/-- The first place of a row of numbers at which a search succeeds. -/
theorem findSome?_range_eq_some {β : Type} {search : Nat → Option β} {n : Nat} {b : β}
    (found : (List.range n).findSome? search = some b) :
    ∃ i < n, search i = some b ∧ ∀ j < i, search j = none := by
  obtain ⟨before, i, after, split, here, missed⟩ := List.findSome?_eq_some_iff.mp found
  have ascending := List.pairwise_lt_range (n := n)
  rw [split] at ascending
  have bound : i < n := List.mem_range.mp (split ▸ List.mem_append_right before (List.mem_cons_self ..))
  refine ⟨i, bound, here, fun j less => missed j ?_⟩
  have member : j ∈ before ++ i :: after := split ▸ List.mem_range.mpr (less.trans bound)
  refine (List.mem_append.mp member).resolve_right fun late => ?_
  have behind := (List.pairwise_append.mp ascending).2.1
  rcases List.mem_cons.mp late with rfl | later
  · exact Nat.lt_irrefl j less
  · exact Nat.lt_asymm less (List.rel_of_pairwise_cons behind later)

theorem readsBack_double (pattern : Nat) (exponent : ℤ) :
    ReadsBack .double pattern exponent =
      fun c : ℕ => Binary64.Rounds (c * 10 ^ exponent) pattern := by
  funext c
  exact propext Binary64.rounds_iff.symm

/-- The search over the numbers of digits ends at the first power of ten of which a multiple is rounded to
the magnitude, with the nearest multiple of that power. -/
theorem exists_search {pattern : Nat} {order : ℤ} (positive : 0 < pattern)
    (reached : (10 : ℚ) ^ order ≤ BinaryFormat.double.magnitude pattern) :
    ∃ extra c : ℕ,
      (List.range digitLimit).findSome? (fun extra : Nat =>
        nearestAt? .toEven .double pattern (order - extra)) = some (c, order - extra) ∧
      NearestAmong (fun c => Binary64.Rounds (c * 10 ^ (order - extra)) pattern)
        (fun c => c * 10 ^ (order - extra)) (Binary64.magnitudeOf pattern) c ∧
      ∀ j < extra, ∀ c : ℕ, ¬ Binary64.Rounds (c * 10 ^ (order - j)) pattern := by
  have cases (extra : ℕ) := nearestAt?_cases (f := .double) (by decide) pattern (order - extra)
  simp only [readsBack_double, Binary64.magnitude_double] at cases
  cases searched : (List.range digitLimit).findSome? fun extra : Nat =>
      nearestAt? .toEven .double pattern (order - extra) with
  | none =>
      obtain ⟨c, reads⟩ := exists_readsBack positive reached
      rw [readsBack_double] at reads
      have last := List.findSome?_eq_none_iff.mp searched 16 (by decide)
      obtain ⟨c', found, -⟩ | ⟨-, none⟩ := cases 16
      · cases last.symm.trans found
      · exact absurd reads (none c)
  | some decimal =>
      obtain ⟨extra, -, found, before⟩ := findSome?_range_eq_some searched
      obtain ⟨c, here, nearest⟩ | ⟨none, -⟩ := cases extra
      · refine ⟨extra, c, congrArg some (Option.some.inj (found.symm.trans here)), nearest, ?_⟩
        intro j less
        obtain ⟨c', found', -⟩ | ⟨-, none⟩ := cases j
        · cases (before j less).symm.trans found'
        · exact none
      · cases none.symm.trans found

/-- The search finds the shortest decimal and removes the zeros at its end. -/
theorem exists_isShortest {pattern : Nat} (positive : 0 < pattern) :
    ∃ c e, IsShortest pattern c e ∧ shortest .toEven .double pattern = stripZeros c e := by
  have units : BinaryFormat.double.units pattern ≠ 0 := by
    intro zero
    have increases := BinaryFormat.double.magnitude_strictMono positive
    rw [BinaryFormat.magnitude, BinaryFormat.magnitude, zero, Nat.cast_zero, zero_div] at increases
    exact absurd increases (not_lt.mpr (BinaryFormat.double.magnitude_nonneg 0))
  have order_spec := magnitudeOrder_spec units (twoPow_pos BinaryFormat.double.scale).ne'
  unfold shortest
  dsimp only
  generalize magnitudeOrder (BinaryFormat.double.units pattern) (twoPow BinaryFormat.double.scale) =
    order at *
  obtain ⟨reached, missed⟩ : (10 : ℚ) ^ order ≤ BinaryFormat.double.magnitude pattern ∧
    BinaryFormat.double.magnitude pattern < 10 ^ (order + 1) := order_spec
  obtain ⟨extra, c, found, nearest, before⟩ := exists_search positive reached
  rw [Binary64.magnitude_double] at reached missed
  refine ⟨c, order - extra, ⟨?_, nearest, fun e coarser small => ?_⟩, by rw [found]; rfl⟩
  · exact (zpow_le_zpow_right₀ (by norm_num) (by omega)).trans reached
  · have bound : e < order + 1 :=
      (zpow_lt_zpow_iff_right₀ (by norm_num : (1 : ℚ) < 10)).mp (small.trans_lt missed)
    obtain ⟨j, place⟩ := Int.eq_ofNat_of_zero_le (by omega : 0 ≤ order - e)
    obtain rfl : e = order - j := by omega
    exact before j (by omega)

end Decimal

end RecordQuery
