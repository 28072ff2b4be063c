import RecordQuery.Attribute
import RecordQuery.Config
import RecordQuery.Failure

/-!
# Index keys

Records and literals meet in keys: a record matches an equality test if its key under the attribute
is the key of the literal. A number and a text are never the same key, and the zeros of both signs
are one key.
-/

namespace RecordQuery

/-- A value by which records are filed. -/
inductive IndexKey where
  | number (x : Binary64)
  | text (s : String)
deriving DecidableEq

namespace IndexKey

/-- The key of a number. -/
def ofNumber (x : Binary64) : IndexKey := number x.unsignedZero

/-- The key of a literal. Under a numeric attribute a literal that is no number is a text. -/
def forLiteral (a : Attribute) (literal : String) : IndexKey :=
  match a.kind with
  | .text => text literal
  | .numeric =>
    match Decimal.readNumber literal with
    | some x => ofNumber x
    | none => text literal

/-- Whether the field holds something that is not null. -/
def isPresent (a : Attribute) (record : Record) : Bool :=
  match record.get? a.name with
  | some (.number _) => true
  | some (.text _) => true
  | _ => false

/-- The key of a record. Under a numeric attribute a value that is no number is a text, unless the
policy refuses it. -/
def ofRecord (policy : MixedTypePolicy) (a : Attribute) (record : Record) :
    Except EvalError IndexKey :=
  match a.extract record with
  | some (.number x) => .ok (ofNumber x)
  | some (.text s) => .ok (text s)
  | none =>
    let value := a.textOf record
    if isPresent a record ∧ policy = .reject then .error (.mixedType a.name value)
    else .ok (text value)

end IndexKey

end RecordQuery
