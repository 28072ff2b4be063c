import RecordQuery.Record

/-!
# Attributes

An attribute is a field together with the way in which its values are compared. A field is compared
as a number if the last record that carries it holds a number there, and as text otherwise.
-/

namespace RecordQuery

/-- How the values of a field are compared. -/
inductive AttributeKind where
  | numeric
  | text
deriving DecidableEq

/-- The kind in words. -/
def AttributeKind.name : AttributeKind → String
  | numeric => "numeric"
  | text => "text"

/-- A field and the way in which its values are compared. -/
structure Attribute where
  name : String
  kind : AttributeKind
deriving DecidableEq

/-- A value read from a record under an attribute. -/
inductive AttributeValue where
  | number (x : Binary64)
  | text (s : String)
deriving DecidableEq

namespace Attribute

/-- The attribute that one value of a field suggests. -/
def classify (field : String) (value : FieldValue) : Attribute :=
  ⟨field, if value.isNumber then .numeric else .text⟩

/-- The text of the field in a record. A field that is absent reads like null. -/
def textOf (a : Attribute) (record : Record) : String :=
  ((record.get? a.name).getD .null).toText

/-- The value of the field in a record. Under a numeric attribute there is none if the field is
absent or does not hold a finite number. -/
def extract (a : Attribute) (record : Record) : Option AttributeValue :=
  match a.kind with
  | .text => some (.text (a.textOf record))
  | .numeric =>
    match record.get? a.name with
    | some (.number n) => n.toBinary?.map .number
    | some (.text s) => (Decimal.readNumber s).map .number
    | some .null => none
    | none => none

end Attribute

/-- Attributes by the name of their field. -/
structure AttributeRegistry where
  attributes : SortedMap Attribute

namespace AttributeRegistry

/-- No attributes. -/
def empty : AttributeRegistry := ⟨SortedMap.empty⟩

/-- The attribute of a field. -/
def get? (registry : AttributeRegistry) (field : String) : Option Attribute :=
  registry.attributes.get? field

/-- The registry with one more attribute, and the attribute of the same field that it has replaced. -/
def register (registry : AttributeRegistry) (a : Attribute) :
    AttributeRegistry × Option Attribute :=
  (⟨registry.attributes.insert a.name a⟩, registry.get? a.name)

/-- Whether the field has an attribute. -/
def contains (registry : AttributeRegistry) (field : String) : Bool :=
  registry.attributes.contains field

/-- The fields in ascending order. -/
def names (registry : AttributeRegistry) : List String := registry.attributes.keys

/-- The attributes in the order of their fields. -/
def toList (registry : AttributeRegistry) : List Attribute := registry.attributes.values

/-- The number of attributes. -/
def size (registry : AttributeRegistry) : Nat := registry.attributes.size

/-- Whether there is no attribute. -/
def isEmpty (registry : AttributeRegistry) : Bool := registry.attributes.isEmpty

/-- The registry after the fields of one more record have been classified. -/
def addRecord (registry : AttributeRegistry) (record : Record) : AttributeRegistry :=
  record.toList.foldl (fun registry (field, value) =>
    (registry.register (Attribute.classify field value)).1) registry

/-- The attributes of all fields of the records. -/
def ofRecords (records : List Record) : AttributeRegistry := records.foldl addRecord empty

end AttributeRegistry

end RecordQuery
