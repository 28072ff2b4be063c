import RecordQuery.Json
import RecordQuery.Refusal

/-!
# Typed data

The data that an object may consist of before it becomes JSON, and its conversion. Types that JSON
lacks are represented by its own: an absent value by null, bytes by numbers, an alternative with a
value by an object of one member. Not every datum can be represented, and not every one can be a
key.
-/

namespace RecordQuery

/-- A typed value. A binary value that is not finite is `none`. -/
inductive Datum where
  /-- A value that is not there, or has no content. -/
  | absent
  /-- A value that might have been absent. -/
  | present (value : Datum)
  /-- A value in a type of its own. -/
  | wrapped (value : Datum)
  | boolean (b : Bool)
  | integer (n : Int)
  | single (x : Option (Binary .single))
  | double (x : Option (Binary .double))
  /-- A text, a character or the name of an alternative. -/
  | text (s : String)
  | bytes (values : List UInt8)
  /-- An alternative with a value. -/
  | tagged (name : String) (value : Datum)
  | sequence (items : List Datum)
  | mapping (entries : List (Datum × Datum))
  /-- A value that refuses to be represented, and says why. -/
  | failing (cause : String)
deriving Inhabited

namespace Datum

/-- Why a datum has no representation. -/
inductive Fault where
  /-- A whole number outside the ranges of signed and unsigned 64 bits. -/
  | outOfRange
  /-- A key of a kind that cannot be written as a string. -/
  | keyNotText
  /-- A binary value that is not finite, as a key. -/
  | keyNotFinite
  /-- The datum itself refused, and said why. -/
  | refused (cause : String)
deriving DecidableEq

/-- The fault in words. -/
def Fault.message : Fault → String
  | outOfRange => "number out of range"
  | keyNotText => "key must be a string"
  | keyNotFinite => "float key must be finite (got NaN or +/-inf)"
  | refused cause => Refusal.report cause

/-- The string that represents a datum as a key. -/
def toKey : Datum → Except Fault String
  | wrapped value => toKey value
  | boolean b => .ok (toString b)
  | integer n => .ok (toString n)
  | single (some x) => .ok (FloatLayout.single.write x)
  | double (some x) => .ok (FloatLayout.double.write x)
  | single none => .error .keyNotFinite
  | double none => .error .keyNotFinite
  | text s => .ok s
  | failing cause => .error (.refused cause)
  | _ => .error .keyNotText

/-- A finite value of 64 bits, or null. -/
def jsonOfBinary : Option Binary64 → Json
  | some x => .number (.float x)
  | none => .null

mutual

/-- The JSON that represents a datum, or the first fault. -/
def toJson : Datum → Except Fault Json
  | absent => .ok .null
  | present value => toJson value
  | wrapped value => toJson value
  | boolean b => .ok (.boolean b)
  | integer n => if Number.fits64 n then .ok (.number (.integer n)) else .error .outOfRange
  | single x => .ok (jsonOfBinary (x.bind fun x => x.convert? .double))
  | double x => .ok (jsonOfBinary x)
  | text s => .ok (.string s)
  | bytes values => .ok (.array (values.map fun b => .number (.integer b.toNat)))
  | tagged name value => do
    let value ← toJson value
    return .object [(name, value)]
  | sequence items => do
    let items ← itemsToJson items
    return .array items
  | mapping entries => do
    let members ← entriesToJson entries
    return Json.ofMembers members
  | failing cause => .error (.refused cause)

/-- The JSON of each datum in turn. -/
def itemsToJson : List Datum → Except Fault (List Json)
  | [] => .ok []
  | item :: rest => do
    let item ← toJson item
    let rest ← itemsToJson rest
    return item :: rest

/-- The members of each entry in turn, the key before the value. -/
def entriesToJson : List (Datum × Datum) → Except Fault (List (String × Json))
  | [] => .ok []
  | (key, value) :: rest => do
    let key ← toKey key
    let value ← toJson value
    let rest ← entriesToJson rest
    return (key, value) :: rest

end

end Datum

end RecordQuery
