import RecordQuery.Attribute
import RecordQuery.Query.Dialect

/-!
# Failures of a query

The failures of the stages of a query, and the one error in which they all end. That error keeps the
most specific words: those of the cause, if the failure has one behind it, and its own otherwise.
-/

namespace RecordQuery

/-- Failures in words, together with what caused them. -/
class Failure (ε : Type) where
  /-- The failure itself. -/
  message : ε → String
  /-- What caused it, if that is a failure of its own. -/
  cause? : ε → Option String

instance : Failure ParseError where
  message := ParseError.message
  cause? _ := none

instance : Failure FlattenError where
  message := FlattenError.message
  cause?
    | .unrepresentable fault => some fault.message
    | .notAnObject _ => none

/-- A failure of one of the stages of a query. -/
inductive EvalError where
  /-- The text could not be read in the dialect. -/
  | unreadable (dialect : String) (error : ParseError)
  /-- The object at the position has no record. -/
  | unflattened (position : Nat) (error : FlattenError)
  /-- The predicate tests a field that no record carries. -/
  | unknownAttribute (field : String)
  /-- A numeric field holds a text that is not a number. -/
  | mixedType (field value : String)
  /-- Two objects have equal records. -/
  | duplicateRecord (first second : Nat)
deriving DecidableEq

instance : Failure EvalError where
  message
    | .unreadable dialect _ => "Failed to parse " ++ dialect ++ " query"
    | .unflattened position _ => "Failed to flatten input object at position " ++ toString position
    | .unknownAttribute field =>
      "Attribute '" ++ field ++ "' is not registered for this collection"
    | .mixedType field value =>
      "Attribute '" ++ field ++ "' is numeric but a record holds non-numeric value '" ++ value ++
        "'"
    | .duplicateRecord first second =>
      "Objects at positions " ++ toString first ++ " and " ++ toString second ++
        " flatten to the same record"
  cause?
    | .unreadable _ error => some error.message
    | .unflattened _ error => some error.message
    | _ => none

/-- The error in which a query ends. -/
structure QueryError where
  message : String
deriving DecidableEq

namespace QueryError

/-- The error of a failure, in the words of its cause if it has one. -/
def ofFailure {ε : Type} [Failure ε] (failure : ε) : QueryError :=
  ⟨(Failure.cause? failure).getD (Failure.message failure)⟩

/-- The error as it is shown. -/
def display (e : QueryError) : String := "Bad query: " ++ e.message

end QueryError

end RecordQuery
