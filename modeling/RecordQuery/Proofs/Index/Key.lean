import RecordQuery.Index.Key
import RecordQuery.Proofs.Record

/-!
# Which literals a value meets

The keys of a record and of a literal are computed apart from each other. They agree exactly where the
value meets the literal, which is said here without keys.
-/

namespace RecordQuery

namespace FieldValue

/-- Whether a value meets a literal under the kind of its field. Under the numeric kind a number, and a
text that reads as one, meets the literals that read as the same number. In all other cases the text
of the value is the literal. -/
def meets : AttributeKind → FieldValue → String → Bool
  | .numeric, number n, literal =>
    (Decimal.readNumber literal).any fun y => n.toBinary?.any fun x => x.sameNumber y
  | .numeric, text s, literal =>
    match Decimal.readNumber s with
    | some x => (Decimal.readNumber literal).any fun y => x.sameNumber y
    | none => s == literal
  | .numeric, null, literal => null.toText == literal
  | .text, value, literal => value.toText == literal

end FieldValue

namespace Record

/-- The value of a field, which is null where the record does not carry it. -/
def valueOf (r : Record) (field : String) : FieldValue := (r.get? field).getD .null

end Record

namespace IndexKey

theorem ofNumber_inj {x y : Binary64} : ofNumber x = ofNumber y ↔ x.sameNumber y = true := by
  rw [Binary.sameNumber_iff]
  exact IndexKey.number.injEq .. ▸ Iff.rfl

theorem readNumber_null : Decimal.readNumber "null" = none := by decide

section Numeric

variable {field literal : String}

/-- The key of a number is the key of the literals that read as the same number. -/
theorem ofNumber_eq_forLiteral_iff {x : Binary64} :
    ofNumber x = forLiteral ⟨field, .numeric⟩ literal ↔
      ((Decimal.readNumber literal).any fun y => x.sameNumber y) = true := by
  unfold forLiteral
  cases number : Decimal.readNumber literal with
  | none => simp [ofNumber]
  | some y => simpa using ofNumber_inj

/-- A text that does not read as a number is the key of itself alone. -/
theorem text_eq_forLiteral_iff {s : String} (noNumber : Decimal.readNumber s = none) :
    text s = forLiteral ⟨field, .numeric⟩ literal ↔ (s == literal) = true := by
  rw [forLiteral, beq_iff_eq]
  cases number : Decimal.readNumber literal with
  | none => exact IndexKey.text.injEq .. ▸ Iff.rfl
  | some y =>
      have differ : s ≠ literal := by
        rintro rfl
        rw [noNumber] at number
        cases number
      simp [ofNumber, differ]

end Numeric

/-- The key of a record where its value is not refused. -/
def keyOf (a : Attribute) (r : Record) : IndexKey :=
  match a.extract r with
  | some (.number x) => ofNumber x
  | some (.text s) => text s
  | none => text (a.textOf r)

/-- A record is filed under its key if it is filed at all. -/
theorem eq_keyOf_of_ofRecord {policy : MixedTypePolicy} {a : Attribute} {r : Record}
    {key : IndexKey} (filed : ofRecord policy a r = .ok key) : key = keyOf a r := by
  unfold ofRecord at filed
  unfold keyOf
  cases read : a.extract r with
  | some value =>
      rw [read] at filed
      cases value with
      | number x => exact (Except.ok.inj filed).symm
      | text s => exact (Except.ok.inj filed).symm
  | none =>
      rw [read] at filed
      dsimp only at filed
      split at filed
      · cases filed
      · exact (Except.ok.inj filed).symm

/-- A record is refused by the rejecting policy alone, for a value that is no number. -/
theorem ofRecord_eq_error_iff {policy : MixedTypePolicy} {a : Attribute} {r : Record}
    {e : EvalError} :
    ofRecord policy a r = .error e ↔
      policy = .reject ∧ a.extract r = none ∧ isPresent a r = true ∧
        e = .mixedType a.name (a.textOf r) := by
  unfold ofRecord
  cases a.extract r with
  | some value => cases value <;> simp
  | none =>
      by_cases refused : isPresent a r = true ∧ policy = .reject
      · simp [refused, eq_comm]
      · simp only [if_neg refused, reduceCtorEq, true_and, false_iff]
        rintro ⟨rejecting, present, -⟩
        exact refused ⟨present, rejecting⟩

/-- Where texts stand in for numbers no record is refused. -/
theorem ofRecord_textFallback (a : Attribute) (r : Record) :
    ofRecord .textFallback a r = .ok (keyOf a r) := by
  unfold ofRecord keyOf
  cases a.extract r with
  | none => simp
  | some value => cases value <;> rfl

/-- The key of a record is the key of the literals that its value meets. -/
theorem keyOf_eq_forLiteral_iff {a : Attribute} {r : Record} (finite : r.Finite)
    (literal : String) :
    keyOf a r = forLiteral a literal ↔ (r.valueOf a.name).meets a.kind literal = true := by
  obtain ⟨field, kind⟩ := a
  unfold keyOf Attribute.extract Attribute.textOf Record.valueOf
  cases kind with
  | text => simp [forLiteral, FieldValue.meets]
  | numeric =>
      cases carried : r.get? field with
      | none => exact text_eq_forLiteral_iff readNumber_null
      | some value =>
          cases value with
          | number n =>
              obtain ⟨x, finite⟩ := Option.isSome_iff_exists.mp (finite field n carried)
              simpa [FieldValue.meets, finite] using ofNumber_eq_forLiteral_iff
          | text s =>
              cases number : Decimal.readNumber s with
              | none =>
                  simpa [FieldValue.meets, FieldValue.toText, number] using
                    text_eq_forLiteral_iff number
              | some x => simpa [FieldValue.meets, number] using ofNumber_eq_forLiteral_iff
          | null => exact text_eq_forLiteral_iff readNumber_null

end IndexKey

end RecordQuery
