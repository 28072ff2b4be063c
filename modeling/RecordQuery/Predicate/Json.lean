import RecordQuery.Json
import RecordQuery.Predicate

/-!
# Predicates as JSON

A predicate is written as an object of one member, whose key says which node it is. Members of an
equality test other than its field and its value are skipped. One node that cannot be read makes the
whole value unreadable.
-/

namespace RecordQuery

namespace Predicate

mutual

/-- The JSON of a predicate. -/
def toJson : Predicate → Json
  | equal field value =>
    .object [("equal", .object [("field", .string field), ("value", .string value)])]
  | and children => .object [("and", .array (toJsonAll children))]
  | or children => .object [("or", .array (toJsonAll children))]

/-- The JSON of each predicate. -/
def toJsonAll : List Predicate → List Json
  | [] => []
  | child :: rest => toJson child :: toJsonAll rest

end

/-- Reads the content of an equality test. -/
def equalOfJson? : Json → Option Predicate
  | .object members =>
    match members.lookup "field", members.lookup "value" with
    | some (.string field), some (.string value) => some (equal field value)
    | _, _ => none
  | _ => none

mutual

/-- Reads a predicate. -/
def ofJson? : Json → Option Predicate
  | .object [(key, content)] => nodeOfJson? key content
  | _ => none

/-- Reads the node of the given key from its content. -/
def nodeOfJson? (key : String) : Json → Option Predicate
  | .array items =>
    if key = "and" then (ofJsonAll? items).map and
    else if key = "or" then (ofJsonAll? items).map or
    else none
  | content => if key = "equal" then equalOfJson? content else none

/-- Reads a list of predicates. -/
def ofJsonAll? : List Json → Option (List Predicate)
  | [] => some []
  | item :: rest =>
    match ofJson? item, ofJsonAll? rest with
    | some child, some children => some (child :: children)
    | _, _ => none

end

end Predicate

end RecordQuery
