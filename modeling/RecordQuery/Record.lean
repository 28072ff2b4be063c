import RecordQuery.Datum

/-!
# Records

A record is the flat image of an object: every member becomes a field, and a nested value is kept as
its compact text. Records are compared by their fields, numbers as numbers of JSON.
-/

namespace RecordQuery

/-- The value of a field. -/
inductive FieldValue where
  | number (n : Number)
  | text (s : String)
  | null
deriving DecidableEq

namespace FieldValue

/-- The value of a field that holds a value of JSON. -/
def ofJson : Json → FieldValue
  | .null => null
  | .number n => number n
  | .string s => text s
  | .boolean b => text (toString b)
  | nested => text nested.text

/-- Whether the value is a number. -/
def isNumber : FieldValue → Bool
  | number _ => true
  | _ => false

/-- The text by which the value is compared as text. -/
def toText : FieldValue → String
  | number n => n.text
  | text s => s
  | null => "null"

/-- Whether two values are equal. -/
def same : FieldValue → FieldValue → Bool
  | number n, number m => n.same m
  | text s, text t => s == t
  | null, null => true
  | _, _ => false

end FieldValue

/-- Fields by name. -/
structure Record where
  fields : SortedMap FieldValue

/-- What was found in the place of an object. -/
inductive NonObject where
  | null
  | boolean
  | number
  | string
  | sequence
deriving DecidableEq

/-- The kind of value in words. -/
def NonObject.text : NonObject → String
  | null => "null"
  | boolean => "a boolean"
  | number => "a number"
  | string => "a string"
  | sequence => "a sequence"

/-- Why an object has no record. -/
inductive FlattenError where
  /-- The object cannot be represented as JSON. -/
  | unrepresentable (fault : Datum.Fault)
  /-- The object is represented by something other than an object of JSON. -/
  | notAnObject (found : NonObject)
deriving DecidableEq

/-- The error in words. -/
def FlattenError.message : FlattenError → String
  | unrepresentable fault => "Failed to serialize object: " ++ fault.message
  | notAnObject found =>
    "Cannot flatten " ++ found.text ++ " into a record; expected a struct or map"

namespace Record

/-- The record without fields. -/
def empty : Record := ⟨SortedMap.empty⟩

/-- The record with one more field, which replaces that of the same name. -/
def insert (record : Record) (field : String) (value : FieldValue) : Record :=
  ⟨record.fields.insert field value⟩

/-- The record of the given fields, of which a later one replaces an earlier one of its name. -/
def ofList (fields : List (String × FieldValue)) : Record := ⟨SortedMap.ofList fields⟩

/-- The value of a field. -/
def get? (record : Record) (field : String) : Option FieldValue := record.fields.get? field

/-- The fields by ascending name. -/
def toList (record : Record) : List (String × FieldValue) := record.fields.entries

/-- The number of fields. -/
def size (record : Record) : Nat := record.fields.size

/-- Whether there is no field. -/
def isEmpty (record : Record) : Bool := record.fields.isEmpty

/-- Whether two lists have the same names in the same order, with equal values. -/
def sameFields : List (String × FieldValue) → List (String × FieldValue) → Bool
  | [], [] => true
  | (f, v) :: rest, (g, w) :: others => f == g && v.same w && sameFields rest others
  | _, _ => false

/-- Whether two records are equal. -/
def same (r s : Record) : Bool := sameFields r.toList s.toList

/-- The record of an object of JSON. -/
def ofJson : Json → Except FlattenError Record
  | .object members => .ok (ofList (members.map fun (key, value) => (key, FieldValue.ofJson value)))
  | .null => .error (.notAnObject .null)
  | .boolean _ => .error (.notAnObject .boolean)
  | .number _ => .error (.notAnObject .number)
  | .string _ => .error (.notAnObject .string)
  | .array _ => .error (.notAnObject .sequence)

/-- The record of a datum that is represented by an object. -/
def ofDatum (datum : Datum) : Except FlattenError Record :=
  match datum.toJson with
  | .ok value => ofJson value
  | .error fault => .error (.unrepresentable fault)

end Record

end RecordQuery
