import RecordQuery.Query.Statement
import RecordQuery.Query.Call

/-!
# Predicates as query text

Every predicate has a text in both dialects. In the statement dialect all names stand between double
quotes and every node between parentheses; in call notation every node is a call. A node of fewer
than two children has a text as well, but no dialect reads it as that node.
-/

namespace RecordQuery

namespace Statement

/-- A literal between single quotes, with the single quotes inside it written twice. -/
def quoteLiteral (value : String) : String :=
  "'" ++ String.ofList (value.toList.flatMap fun c => if c = '\x27' then [c, c] else [c]) ++ "'"

end Statement

namespace Predicate

mutual

/-- The text of a predicate in the statement dialect, as characters. -/
def statementChars : Predicate → List Char
  | equal field value =>
    (Statement.quoteName field ++ " = " ++ Statement.quoteLiteral value).toList
  | and children => '(' :: " AND ".toList.intercalate (statementCharsAll children) ++ [')']
  | or children => '(' :: " OR ".toList.intercalate (statementCharsAll children) ++ [')']

/-- The text of each predicate in the statement dialect. -/
def statementCharsAll : List Predicate → List (List Char)
  | [] => []
  | child :: rest => statementChars child :: statementCharsAll rest

end

/-- The text of a predicate in the statement dialect. -/
def write (p : Predicate) : String := String.ofList p.statementChars

/-- A string between double quotes, with a backslash before each double quote and backslash. -/
def quoteArgument (s : String) : List Char :=
  '\x22' :: s.toList.flatMap (fun c => if c = '\x22' ∨ c = '\\' then ['\\', c] else [c]) ++ ['\x22']

mutual

/-- The text of a predicate in call notation, as characters. -/
def callChars : Predicate → List Char
  | equal field value =>
    "equal(".toList ++ quoteArgument field ++ ", ".toList ++ quoteArgument value ++ [')']
  | and children => "and(".toList ++ ", ".toList.intercalate (callCharsAll children) ++ [')']
  | or children => "or(".toList ++ ", ".toList.intercalate (callCharsAll children) ++ [')']

/-- The text of each predicate in call notation. -/
def callCharsAll : List Predicate → List (List Char)
  | [] => []
  | child :: rest => callChars child :: callCharsAll rest

end

/-- The text of a predicate in call notation. -/
def writeCall (p : Predicate) : String := String.ofList p.callChars

end Predicate

end RecordQuery
