import RecordQuery.SortedMap
import RecordQuery.Decimal.Shortest

/-!
# JSON values

Values of JSON and their compact text. A number is a whole number or a binary value of 64 bits, and
the two are never equal. The members of an object are listed by ascending key, each key once;
`Json.ofMembers` puts them into that form.
-/

namespace RecordQuery

/-- A number of JSON. -/
inductive Number where
  | integer (n : Int)
  | float (x : Binary64)
deriving DecidableEq

namespace Number

/-- Whether two numbers are equal: whole numbers as such, binary values as numbers, so that the
zeros of both signs are equal, and a whole number is never equal to a binary value. -/
def same : Number → Number → Bool
  | integer n, integer m => n == m
  | float x, float y => x.sameNumber y
  | _, _ => false

/-- The nearest binary value, unless the number is too large for one. -/
def toBinary? : Number → Option Binary64
  | integer n => Binary.ofInt? .double n
  | float x => some x

/-- Whether a whole number lies in the range of signed or in that of unsigned 64 bits. -/
def fits64 (n : Int) : Bool := -9223372036854775808 ≤ n && n ≤ 18446744073709551615

/-- The text of a number. -/
def text : Number → String
  | integer n => toString n
  | float x => FloatLayout.double.write x

end Number

/-- A value of JSON. -/
inductive Json where
  | null
  | boolean (b : Bool)
  | number (n : Number)
  | string (s : String)
  | array (items : List Json)
  | object (members : List (String × Json))
deriving Inhabited

namespace Json

/-- The object with the given members, of which a later one replaces an earlier one of its key. -/
def ofMembers (members : List (String × Json)) : Json := object (SortedMap.ofList members).entries

/-- The lower-case hexadecimal digit of a number below sixteen. -/
def hexDigit (n : Nat) : Char := if n < 10 then Char.ofNat (48 + n) else Char.ofNat (87 + n)

/-- A character as it is written inside quotes. -/
def escape (c : Char) : List Char :=
  match c with
  | '\x22' => ['\\', '\x22']
  | '\\' => ['\\', '\\']
  | '\x08' => ['\\', 'b']
  | '\x0c' => ['\\', 'f']
  | '\n' => ['\\', 'n']
  | '\r' => ['\\', 'r']
  | '\t' => ['\\', 't']
  | c =>
    if c.toNat < 32 then ['\\', 'u', '0', '0', hexDigit (c.toNat / 16), hexDigit (c.toNat % 16)]
    else [c]

/-- A string between quotes. -/
def quote (s : String) : List Char := '\x22' :: s.toList.flatMap escape ++ ['\x22']

mutual

/-- The compact text of a value, as characters. -/
def render : Json → List Char
  | null => "null".toList
  | boolean b => (toString b).toList
  | number n => n.text.toList
  | string s => quote s
  | array items => '[' :: [','].intercalate (renderItems items) ++ [']']
  | object members => '\x7b' :: [','].intercalate (renderMembers members) ++ ['\x7d']

/-- The texts of the items of an array. -/
def renderItems : List Json → List (List Char)
  | [] => []
  | item :: rest => render item :: renderItems rest

/-- The texts of the members of an object. -/
def renderMembers : List (String × Json) → List (List Char)
  | [] => []
  | (key, value) :: rest => (quote key ++ ':' :: render value) :: renderMembers rest

end

/-- The compact text of a value. -/
def text (value : Json) : String := String.ofList value.render

mutual

/-- Whether the members of every object are listed by ascending key. -/
def WellFormed : Json → Prop
  | array items => WellFormedItems items
  | object members => (members.Pairwise fun a b => a.1 < b.1) ∧ WellFormedMembers members
  | _ => True

/-- Whether every item of an array is well formed. -/
def WellFormedItems : List Json → Prop
  | [] => True
  | item :: rest => WellFormed item ∧ WellFormedItems rest

/-- Whether the value of every member is well formed. -/
def WellFormedMembers : List (String × Json) → Prop
  | [] => True
  | (_, value) :: rest => WellFormed value ∧ WellFormedMembers rest

end

end Json

end RecordQuery
