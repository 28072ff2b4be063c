import RecordQuery.Predicate
import RecordQuery.Index.IdMap
import RecordQuery.Index.Postings

/-!
# The index of records

An index stores every distinct record once, in the order of first insertion, with a map in which its
identifier is looked up, and holds the posting lists of the attributes for which it was last built. A
predicate is evaluated on the posting lists alone. Records that are inserted later are not in them
until the lists are built again.
-/

namespace RecordQuery

/-- Distinct records and the posting lists of the indexed attributes. -/
structure RecordIndex where
  /-- The records by identifier. -/
  records : List Record
  /-- The identifiers by record. -/
  ids : IdMap
  /-- The posting lists by field. -/
  postings : SortedMap Postings

namespace RecordIndex

/-- No records, and no attribute indexed. -/
def empty : RecordIndex := ⟨[], IdMap.empty, SortedMap.empty⟩

/-- The number of records. -/
def size (index : RecordIndex) : Nat := index.records.length

/-- Whether there is no record. -/
def isEmpty (index : RecordIndex) : Bool := index.records.isEmpty

/-- The record of an identifier. -/
def record? (index : RecordIndex) (id : RecordId) : Option Record := index.records[id]?

/-- The identifier of the stored record that equals the given one. -/
def idOf? (index : RecordIndex) (record : Record) : Option RecordId := index.ids.find? record

/-- Stores a record, unless an equal one is stored already, and gives its identifier. -/
def insert (index : RecordIndex) (record : Record) : RecordIndex × RecordId :=
  match index.idOf? record with
  | some id => (index, id)
  | none =>
    let id := index.size
    ({ index with
        records := index.records ++ [record]
        ids := index.ids.insert record id }, id)

/-- Builds the posting lists of the attributes one after the other, up to the first failure. The
lists built before it are kept. -/
def buildPostings (policy : MixedTypePolicy) (records : List Record) (built : SortedMap Postings) :
    List Attribute → SortedMap Postings × Except EvalError Unit
  | [] => (built, .ok ())
  | a :: rest =>
    match Postings.ofRecords policy a records with
    | .ok postings => buildPostings policy records (built.insert a.name postings) rest
    | .error e => (built, .error e)

/-- Replaces all posting lists by those of the attributes of a registry. After a failure the lists
of the attributes before the failing one are in place. -/
def indexAttributes (index : RecordIndex) (registry : AttributeRegistry)
    (policy : MixedTypePolicy) : RecordIndex × Except EvalError Unit :=
  let (postings, outcome) := buildPostings policy index.records SortedMap.empty registry.toList
  ({ index with postings }, outcome)

/-- The index of the records, built for the attributes of a registry. -/
def build (records : List Record) (registry : AttributeRegistry) (policy : MixedTypePolicy) :
    Except EvalError RecordIndex :=
  let stored := records.foldl (fun index record => (index.insert record).1) empty
  match stored.indexAttributes registry policy with
  | (index, .ok ()) => .ok index
  | (_, .error e) => .error e

/-- The identifiers of all records. -/
def allIds (index : RecordIndex) : List RecordId := List.range index.size

mutual

/-- The records that satisfy a predicate. A field without an attribute is satisfied by none. -/
def matching (index : RecordIndex) (registry : AttributeRegistry) : Predicate → List RecordId
  | .equal field value =>
    match registry.get? field with
    | none => []
    | some a =>
      match index.postings.get? field with
      | none => []
      | some postings => postings.find (IndexKey.forLiteral a value)
  | .and [] => index.allIds
  | .and (child :: rest) => narrow index registry (matching index registry child) rest
  | .or children => widen index registry [] children

/-- Those of the records that satisfy every predicate of the list. Once none is left, the rest of
the list is not looked at. -/
def narrow (index : RecordIndex) (registry : AttributeRegistry) (found : List RecordId) :
    List Predicate → List RecordId
  | [] => found
  | child :: rest =>
    if found.isEmpty then found
    else narrow index registry (IdList.intersect found (matching index registry child)) rest

/-- The records together with those that satisfy some predicate of the list. -/
def widen (index : RecordIndex) (registry : AttributeRegistry) (found : List RecordId) :
    List Predicate → List RecordId
  | [] => found
  | child :: rest => widen index registry (IdList.union found (matching index registry child)) rest

end

/-- The records that satisfy a predicate, all of whose fields must have an attribute. -/
def evaluate (index : RecordIndex) (predicate : Predicate) (registry : AttributeRegistry) :
    Except EvalError (List RecordId) :=
  match predicate.fields.find? fun field => !registry.contains field with
  | some field => .error (.unknownAttribute field)
  | none => .ok (index.matching registry predicate)

end RecordIndex

end RecordQuery
