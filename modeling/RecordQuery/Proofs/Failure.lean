import RecordQuery.Failure
import RecordQuery.Proofs.Decimal.Writing

/-!
# Words of failures

What a failure says is laid down case by case, down to the free words of a value that refuses to be
represented. Such words may end in a place, which is then written anew.
-/

namespace RecordQuery

/-! ### Free words and their places -/

namespace Refusal

/-- Whether a row of digits is recognised as a line or a column. -/
structure Counts (digits : List Char) (n : Nat) : Prop where
  some : digits ≠ []
  all : digits.all Char.isDigit = true
  value : Nat.ofDigitChars 10 digits 0 = n
  small : n ≤ 18446744073709551615

/-- Whether a text consists of words and a place behind them. -/
def EndsAt (text words : List Char) (line column : Nat) : Prop :=
  ∃ lineDigits columnDigits, Counts lineDigits line ∧ Counts columnDigits column ∧
    text = words ++ " at line ".toList ++ lineDigits ++ " column ".toList ++ columnDigits

/-- The words in which a refusal is reported: its own if they end in no place. A place on line zero is
left out, and any other one is written with plain numbers. -/
inductive Worded (cause : String) : String → Prop
  | placeless (none : ∀ words line column, ¬ EndsAt cause.toList words line column) :
      Worded cause cause
  | lineZero {words column} (ends : EndsAt cause.toList words 0 column) :
      Worded cause (String.ofList words)
  | placed {words line column} (counted : line ≠ 0) (ends : EndsAt cause.toList words line column) :
      Worded cause
        (String.ofList words ++ " at line " ++ toString line ++ " column " ++ toString column)

variable {text words digits front ending : List Char} {line column n : Nat}

theorem isDigit_eq (c : Char) : Decimal.isDigit c = c.isDigit := by
  simp [Decimal.isDigit, Char.isDigit, Char.le_def]

/-- The number at the end of a text is the row of all digits that stand there. -/
theorem counts_of_trailingNumber? (found : trailingNumber? text = some (front, n)) :
    ∃ digits, Counts digits n ∧ text = front ++ digits := by
  have row : (text.reverse.takeWhile Decimal.isDigit).reverse <:+ text :=
    List.reverse_prefix.mp (by simpa using List.takeWhile_prefix Decimal.isDigit)
  have all : (text.reverse.takeWhile Decimal.isDigit).reverse.all Char.isDigit = true :=
    List.all_eq_true.mpr fun c mem =>
      isDigit_eq c ▸ Decimal.digits_takeWhile _ c (List.mem_reverse.mp mem)
  simp only [trailingNumber?] at found
  generalize (text.reverse.takeWhile Decimal.isDigit).reverse = digits at *
  split at found
  · cases found
  · rename_i fits
    obtain ⟨rfl, rfl⟩ := Prod.mk.inj (Option.some.inj found)
    simp only [Bool.or_eq_true, decide_eq_true_eq, not_or, List.isEmpty_iff, not_lt] at fits
    exact ⟨digits, ⟨fits.1, all, rfl, fits.2⟩, (List.suffix_iff_eq_append.mp row).symm⟩

/-- A number behind a word and a blank is the number at the end. -/
theorem trailingNumber?_append (front ending : List Char) (counts : Counts digits n)
    (blank : ending.reverse.head? = some ' ') :
    trailingNumber? (front ++ ending ++ digits) = some (front ++ ending, n) := by
  obtain ⟨some, all, rfl, small⟩ := counts
  have all' : ∀ c ∈ digits.reverse, Decimal.isDigit c = true :=
    fun c mem => (isDigit_eq c).trans (List.all_eq_true.mp all c (List.mem_reverse.mp mem))
  have behind : ∀ c ∈ (front ++ ending).reverse.head?, Decimal.isDigit c = false := by
    rw [List.reverse_append, List.head?_append, blank]
    rintro c ⟨⟩
    decide
  generalize front ++ ending = before at *
  have row := (Decimal.span_append all' behind).1
  have fits : (digits.isEmpty || decide (placeLimit < Decimal.ofDigits digits)) = false := by
    rw [Bool.or_eq_false_iff, List.isEmpty_eq_false_iff, decide_eq_false_iff_not, not_lt]
    exact ⟨some, small⟩
  rw [trailingNumber?, List.reverse_append, row, List.reverse_reverse, List.length_append,
    Nat.add_sub_cancel_right, List.take_left]
  simp only [fits]
  rfl

theorem beforeEnding?_eq_some_iff :
    beforeEnding? ending text = some front ↔ text = front ++ ending := by
  rw [beforeEnding?]
  split
  · rename_i suffix
    have whole := List.suffix_iff_eq_append.mp (List.isSuffixOf_iff_suffix.mp suffix)
    constructor
    · rintro ⟨⟩
      exact whole.symm
    · rintro rfl
      rw [List.length_append, Nat.add_sub_cancel_right, List.take_left]
  · rename_i other
    refine iff_of_false nofun ?_
    rintro rfl
    exact other (List.isSuffixOf_iff_suffix.mpr (List.suffix_append ..))

/-- A text is split where it ends in a place. -/
theorem splitPlace?_eq_some_iff :
    splitPlace? text = some (words, line, column) ↔ EndsAt text words line column := by
  constructor
  · intro found
    simp only [splitPlace?, Option.bind_eq_bind, Option.bind_eq_some_iff, Prod.exists,
      Option.pure_def, Option.some.injEq, Prod.mk.injEq] at found
    obtain ⟨_, _, columnFound, _, columnWord, _, _, lineFound, _, lineWord, rfl, rfl, rfl⟩ := found
    obtain ⟨columnDigits, columnCounts, rfl⟩ := counts_of_trailingNumber? columnFound
    obtain rfl := beforeEnding?_eq_some_iff.mp columnWord
    obtain ⟨lineDigits, lineCounts, rfl⟩ := counts_of_trailingNumber? lineFound
    obtain rfl := beforeEnding?_eq_some_iff.mp lineWord
    exact ⟨lineDigits, columnDigits, lineCounts, columnCounts, rfl⟩
  · rintro ⟨lineDigits, columnDigits, lineCounts, columnCounts, rfl⟩
    have columnWord (front : List Char) :
        beforeEnding? " column ".toList (front ++ " column ".toList) = some front :=
      beforeEnding?_eq_some_iff.mpr rfl
    have lineWord (front : List Char) :
        beforeEnding? " at line ".toList (front ++ " at line ".toList) = some front :=
      beforeEnding?_eq_some_iff.mpr rfl
    have columnFound := trailingNumber?_append (words ++ " at line ".toList ++ lineDigits)
      " column ".toList columnCounts rfl
    have lineFound := trailingNumber?_append words " at line ".toList lineCounts rfl
    simp only [splitPlace?, columnFound, columnWord, lineFound, lineWord, Option.bind_eq_bind,
      Option.bind_some, Option.pure_def]

/-- A refusal is reported in the words of its case. -/
theorem worded_iff {cause said : String} : Worded cause said ↔ said = report cause := by
  rw [report]
  cases split : splitPlace? cause.toList with
  | none =>
      have none : ∀ words line column, ¬ EndsAt cause.toList words line column := by
        intro words line column ends
        rw [splitPlace?_eq_some_iff.mpr ends] at split
        cases split
      constructor
      · intro worded
        cases worded with
        | placeless => rfl
        | lineZero ends => exact absurd ends (none _ _ _)
        | placed counted ends => exact absurd ends (none _ _ _)
      · rintro rfl
        exact .placeless none
  | some place =>
      obtain ⟨words, line, column⟩ := place
      have own := splitPlace?_eq_some_iff.mp split
      have only {words' line' column'} (ends : EndsAt cause.toList words' line' column') :
          (words', line', column') = (words, line, column) :=
        Option.some.inj ((splitPlace?_eq_some_iff.mpr ends).symm.trans split)
      constructor
      · intro worded
        cases worded with
        | placeless none => exact absurd own (none _ _ _)
        | lineZero ends =>
            obtain ⟨rfl, rfl, rfl⟩ := only ends
            rfl
        | placed counted ends =>
            obtain ⟨rfl, rfl, rfl⟩ := only ends
            exact (if_neg counted).symm
      · rintro rfl
        dsimp only
        split
        · rename_i zero
          exact .lineZero (zero ▸ own)
        · rename_i counted
          exact .placed counted own

end Refusal

/-! ### Failures of the stages -/

/-- The words for what is found in the place of an object. -/
inductive NonObject.Worded : NonObject → String → Prop
  | null : Worded .null "null"
  | boolean : Worded .boolean "a boolean"
  | number : Worded .number "a number"
  | string : Worded .string "a string"
  | sequence : Worded .sequence "a sequence"

/-- The words of a fault. -/
inductive Datum.Fault.Worded : Datum.Fault → String → Prop
  | outOfRange : Worded .outOfRange "number out of range"
  | keyNotText : Worded .keyNotText "key must be a string"
  | keyNotFinite : Worded .keyNotFinite "float key must be finite (got NaN or +/-inf)"
  | refused {cause said} (worded : Refusal.Worded cause said) : Worded (.refused cause) said

/-- The words for an object that has no record. -/
inductive FlattenError.Worded : FlattenError → String → Prop
  | unrepresentable {fault said} (worded : Datum.Fault.Worded fault said) :
      Worded (.unrepresentable fault) ("Failed to serialize object: " ++ said)
  | notAnObject {found word} (worded : NonObject.Worded found word) :
      Worded (.notAnObject found)
        ("Cannot flatten " ++ word ++ " into a record; expected a struct or map")

/-- The words in which a query reports that its selection failed. -/
inductive EvalError.Worded : EvalError → String → Prop
  | unflattened {position fault said} (worded : FlattenError.Worded fault said) :
      Worded (.unflattened position fault) said
  | unknownAttribute (field : String) :
      Worded (.unknownAttribute field)
        ("Attribute '" ++ field ++ "' is not registered for this collection")
  | mixedType (field value : String) :
      Worded (.mixedType field value)
        ("Attribute '" ++ field ++ "' is numeric but a record holds non-numeric value '" ++ value ++
          "'")
  | duplicateRecord (first second : Nat) :
      Worded (.duplicateRecord first second)
        ("Objects at positions " ++ toString first ++ " and " ++ toString second ++
          " flatten to the same record")

theorem NonObject.worded_iff {found : NonObject} {word : String} :
    found.Worded word ↔ word = found.text := by
  constructor
  · rintro ⟨⟩ <;> rfl
  · rintro rfl
    cases found <;> constructor

theorem Datum.Fault.worded_iff {fault : Datum.Fault} {said : String} :
    fault.Worded said ↔ said = fault.message := by
  constructor
  · rintro (- | - | - | worded)
    · rfl
    · rfl
    · rfl
    · exact Refusal.worded_iff.mp worded
  · rintro rfl
    cases fault with
    | outOfRange => exact .outOfRange
    | keyNotText => exact .keyNotText
    | keyNotFinite => exact .keyNotFinite
    | refused cause => exact .refused (Refusal.worded_iff.mpr rfl)

theorem FlattenError.worded_iff {e : FlattenError} {said : String} :
    e.Worded said ↔ said = e.message := by
  constructor
  · rintro (worded | worded)
    · obtain rfl := Datum.Fault.worded_iff.mp worded
      rfl
    · obtain rfl := NonObject.worded_iff.mp worded
      rfl
  · rintro rfl
    cases e with
    | unrepresentable fault => exact .unrepresentable (Datum.Fault.worded_iff.mpr rfl)
    | notAnObject found => exact .notAnObject (NonObject.worded_iff.mpr rfl)

/-- A failure of a selection is what the query reports, in the words of its case. -/
theorem EvalError.worded_iff {e : EvalError} (selected : ∀ dialect error, e ≠ .unreadable dialect error)
    {message : String} : e.Worded message ↔ QueryError.ofFailure e = ⟨message⟩ := by
  constructor
  · rintro (worded | - | - | -)
    · rw [FlattenError.worded_iff.mp worded]
      rfl
    · rfl
    · rfl
    · rfl
  · intro reported
    obtain rfl := QueryError.mk.inj reported
    cases e with
    | unreadable dialect error => exact absurd rfl (selected dialect error)
    | unflattened position fault => exact .unflattened (FlattenError.worded_iff.mpr rfl)
    | unknownAttribute field => exact .unknownAttribute field
    | mixedType field value => exact .mixedType field value
    | duplicateRecord first second => exact .duplicateRecord first second

end RecordQuery
