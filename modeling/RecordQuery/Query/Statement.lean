import RecordQuery.Predicate
import RecordQuery.Query.Token

/-!
# Statements and bare predicates

The statement dialect: `SELECT * FROM collection WHERE predicate`. A predicate compares a field with
a literal or is a group in parentheses. A group holds one predicate, or several joined by one and
the same connective. The predicate may also stand on its own.
-/

namespace RecordQuery

/-- A statement: the collection that it names and the condition on its records. -/
structure Statement where
  collection : String
  predicate : Predicate

namespace Parser

/-- A field, an equals sign and a literal. -/
def comparison : Parser Predicate :=
  label .comparison do
    let field ← padded fieldName
    let _ ← padded (char '=')
    let value ← padded singleQuoted
    return .equal field value

/-- One or more further operands, each after the connective. -/
def furtherOperands (connective : Keyword) (operand : Parser Predicate) : Parser (List Predicate) :=
  many1 do
    keyword connective
    operand

/-- What follows the first operand of a group, as a function of that operand. -/
def groupTail (operand : Parser Predicate) : Parser (Predicate → Predicate) :=
  (do
    let others ← furtherOperands .andWord operand
    return fun first => .and (first :: others)) <|>
  (do
    let others ← furtherOperands .orWord operand
    return fun first => .or (first :: others))

/-- Operands in parentheses, joined by one connective. -/
def group (operand : Parser Predicate) : Parser Predicate :=
  label .group do
    let _ ← padded (char '(')
    let first ← operand
    let tail ← optional (groupTail operand)
    let _ ← padded (char ')')
    return match tail with
      | none => first
      | some join => join first

/-- A group or a comparison. -/
def predicate : Parser Predicate :=
  recursive fun operand => group operand <|> comparison

/-- A predicate that makes up the whole text. -/
def barePredicate : Parser Predicate := do
  let p ← padded predicate
  endOfInput
  return p

/-- A statement that makes up the whole text. -/
def statement : Parser Statement := do
  keyword .selectWord
  let _ ← padded (char '*')
  keyword .fromWord
  let collection ← label .collectionName (padded fieldName)
  keyword .whereWord
  let condition ← predicate
  endOfInput
  return ⟨collection, condition⟩

end Parser

namespace Statement

/-- Reads a statement. -/
def parse (text : String) : Except SyntaxError Statement :=
  Parser.statement.readAll text.toList

/-- A name between double quotes, with the double quotes inside it written twice. -/
def quoteName (name : String) : String :=
  "\"" ++ String.ofList (name.toList.flatMap fun c => if c = '\x22' then [c, c] else [c]) ++ "\""

/-- A name as it is written in a statement: bare if all its characters allow that, and between
double quotes otherwise. -/
def writeName (name : String) : String :=
  if !name.isEmpty && name.toList.all isBareNameChar then name else quoteName name

/-- The text of the statement that a bare predicate stands for. The predicate is taken as it is,
whether or not it can be read. -/
def wrap (collection predicate : String) : String :=
  "SELECT * FROM " ++ writeName collection ++ " WHERE " ++ predicate

end Statement

namespace Predicate

/-- Reads a bare predicate of the statement dialect. -/
def parse (text : String) : Except SyntaxError Predicate :=
  Parser.barePredicate.readAll text.toList

end Predicate

end RecordQuery
