import RecordQuery.Config
import RecordQuery.Failure
import RecordQuery.Index.IdList

/-!
# Origins of records

For every record, the objects that it came from. Which objects are kept where several share a record
is for the duplicate policy to say.
-/

namespace RecordQuery

variable {α : Type}

/-- An object and its position in the input. -/
structure Origin (α : Type) where
  position : Nat
  object : α

/-- The kept origins of each record. -/
structure Origins (α : Type) where
  policy : DuplicatePolicy
  /-- The origins by identifier. -/
  slots : List (List (Origin α))
  /-- How often an object met a record that had an origin. -/
  collisions : Nat

namespace Origins

/-- No origins. -/
def empty (policy : DuplicatePolicy) : Origins α := ⟨policy, [], 0⟩

/-- The number of records, counted up to the greatest identifier with an origin. -/
def size (origins : Origins α) : Nat := origins.slots.length

/-- Whether no record has an origin. -/
def isEmpty (origins : Origins α) : Bool := origins.slots.isEmpty

/-- The kept origins of a record. -/
def slot (origins : Origins α) (id : RecordId) : List (Origin α) := origins.slots[id]?.getD []

/-- The kept objects of a record, in the order of the input. -/
def resolve (origins : Origins α) (id : RecordId) : List α := (origins.slot id).map Origin.object

/-- The slots with room for an identifier. -/
def grow (slots : List (List (Origin α))) (id : RecordId) : List (List (Origin α)) :=
  slots ++ List.replicate (id + 1 - slots.length) []

/-- The origins that the policy keeps when one more object meets a record that has some. -/
def combine (policy : DuplicatePolicy) (kept : List (Origin α)) (origin : Origin α) :
    List (Origin α) :=
  match policy with
  | .keepFirst => kept
  | .keepLast => [origin]
  | .keepAll => kept ++ [origin]
  | .reject => kept

/-- Notes that an object is the origin of a record. Under the rejecting policy the second origin of
a record is a failure; it is counted, but not kept. -/
def insert (origins : Origins α) (id : RecordId) (position : Nat) (object : α) :
    Origins α × Except EvalError Unit :=
  let origin : Origin α := ⟨position, object⟩
  let slots := grow origins.slots id
  match origins.slot id with
  | [] => ({ origins with slots := slots.set id [origin] }, .ok ())
  | first :: more =>
    let kept := combine origins.policy (first :: more) origin
    ({ origins with slots := slots.set id kept, collisions := origins.collisions + 1 },
      if origins.policy = .reject then .error (.duplicateRecord first.position position)
      else .ok ())

end Origins

end RecordQuery
