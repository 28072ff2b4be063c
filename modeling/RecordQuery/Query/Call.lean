import RecordQuery.Predicate
import RecordQuery.Query.Token

/-!
# Call notation

The dialect CQN writes a predicate as nested calls: `equal("field", "value")`, and `and(…)` and
`or(…)` of two or more operands. Blanks are allowed around an opening parenthesis and around every
argument.
-/

namespace RecordQuery

namespace Parser

/-- The two arguments of an equality test. -/
def equalCall : Parser Predicate :=
  label .equalCall do
    chars ['e', 'q', 'u', 'a', 'l']
    let _ ← padded (char '(')
    let field ← padded doubleQuoted
    let _ ← char ','
    let value ← padded doubleQuoted
    let _ ← char ')'
    return .equal field value

/-- Two or more operands in parentheses, separated by commas. -/
def operands (operand : Parser Predicate) : Parser (List Predicate) := do
  let _ ← padded (char '(')
  let first ← padded operand
  let others ← many1 do
    let _ ← char ','
    padded operand
  let _ ← char ')'
  return first :: others

/-- A conjunction of operands. -/
def andCall (operand : Parser Predicate) : Parser Predicate :=
  label .andCall do
    chars ['a', 'n', 'd']
    let children ← operands operand
    return .and children

/-- A disjunction of operands. -/
def orCall (operand : Parser Predicate) : Parser Predicate :=
  label .orCall do
    chars ['o', 'r']
    let children ← operands operand
    return .or children

/-- Any of the three calls. -/
def call : Parser Predicate :=
  recursive fun operand => equalCall <|> andCall operand <|> orCall operand

/-- A call that makes up the whole text. -/
def wholeCall : Parser Predicate := do
  let p ← padded call
  endOfInput
  return p

end Parser

namespace Predicate

/-- Reads a predicate in call notation. -/
def parseCall (text : String) : Except SyntaxError Predicate :=
  Parser.wholeCall.readAll text.toList

end Predicate

end RecordQuery
