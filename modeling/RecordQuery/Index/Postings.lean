import RecordQuery.Index.IdList
import RecordQuery.Index.Key

/-!
# Posting lists

The posting lists of an attribute hold, for every key, the records that have it, by ascending
identifier.
-/

namespace RecordQuery

/-- For each key the records filed under it. -/
structure Postings where
  lists : List (IndexKey × List RecordId)

namespace Postings

/-- No record is filed. -/
def empty : Postings := ⟨[]⟩

/-- Puts an identifier at the end of the list of a key. -/
def appendTo (key : IndexKey) (id : RecordId) :
    List (IndexKey × List RecordId) → List (IndexKey × List RecordId)
  | [] => [(key, [id])]
  | (k, ids) :: rest =>
    if k = key then (k, ids ++ [id]) :: rest else (k, ids) :: appendTo key id rest

/-- Files one more record under a key. -/
def add (postings : Postings) (key : IndexKey) (id : RecordId) : Postings :=
  ⟨appendTo key id postings.lists⟩

/-- The records filed under a key. -/
def find (postings : Postings) (key : IndexKey) : List RecordId :=
  (postings.lists.lookup key).getD []

/-- Files the records from the given identifier on, up to the first one without a key. -/
def addRecords (policy : MixedTypePolicy) (a : Attribute) (postings : Postings) :
    RecordId → List Record → Except EvalError Postings
  | _, [] => .ok postings
  | id, record :: rest =>
    match IndexKey.ofRecord policy a record with
    | .ok key => addRecords policy a (postings.add key id) (id + 1) rest
    | .error e => .error e

/-- The posting lists of an attribute over all records. -/
def ofRecords (policy : MixedTypePolicy) (a : Attribute) (records : List Record) :
    Except EvalError Postings :=
  addRecords policy a empty 0 records

end Postings

end RecordQuery
