import RecordQuery.Unicode.Word
import RecordQuery.Query.Statement
import RecordQuery.Query.Call

/-!
# Dialects

A dialect is a way of writing predicates, with a cheap test for the texts that it takes charge of.
A registry holds dialects by descending priority and hands a text to the first one that takes it.
-/

namespace RecordQuery

/-- Why no predicate came of a query text. -/
inductive ParseError where
  /-- A statement or a bare predicate was refused, as the report says. -/
  | statement (report : String)
  /-- A text in call notation was refused, as the report says. -/
  | call (report : String)
  /-- No dialect took charge of the text. -/
  | noDialect (text : String) (tried : List String)
deriving DecidableEq

/-- The error in words. -/
def ParseError.message : ParseError → String
  | statement report => report
  | call report => report
  | noDialect text tried =>
    "No syntax matched query '" ++ text ++ "' (tried: " ++ String.intercalate ", " tried ++ ")"

/-- A way of writing predicates. -/
structure Dialect where
  name : String
  /-- Whether the dialect takes charge of a text. It may still refuse the text when reading it. -/
  handles : String → Bool
  parse : String → Except ParseError Predicate
  /-- Dialects of greater priority are asked first. -/
  priority : Nat := 50

namespace Dialect

/-- What remains of a text after one character of each of the given sets, in their order. -/
def stripOpening : List (List Char) → List Char → Option (List Char)
  | [], s => some s
  | _ :: _, [] => none
  | allowed :: more, c :: rest => if c ∈ allowed then stripOpening more rest else none

/-- The letters of the word that opens a statement, in all their cases. The long s is a small form
of the first one. -/
def selectLetters : List (List Char) :=
  [['S', 's', '\u017f'], ['E', 'e'], ['L', 'l'], ['E', 'e'], ['C', 'c'], ['T', 't']]

/-- Whether the first word of the text, blanks aside, is the one that opens a statement. -/
def opensStatement (text : String) : Bool :=
  (stripOpening selectLetters (skipBlanks text.toList)).any atWordEnd

/-- The names of the calls. -/
def callNames : List String := ["equal", "and", "or"]

/-- Whether the text, blanks aside, begins with the name of a call and a parenthesis. -/
def opensCall (text : String) : Bool :=
  callNames.any fun name =>
    (stripOpening (name.toList.map fun c => [c]) (skipBlanks text.toList)).any fun rest =>
      (skipBlanks rest).head? == some '('

/-- Whether the text consists of blanks. -/
def isBlankText (text : String) : Bool := text.toList.all isBlank

/-- Full statements. -/
def statement : Dialect where
  name := "sql"
  handles := opensStatement
  parse text :=
    match Statement.parse text with
    | .ok s => .ok s.predicate
    | .error e => .error (.statement (e.report text.toList))
  priority := 60

/-- Call notation. -/
def call : Dialect where
  name := "cqn"
  handles := opensCall
  parse text :=
    match Predicate.parseCall text with
    | .ok p => .ok p
    | .error e => .error (.call (e.report text.toList))
  priority := 55

/-- Bare predicates, which take any text that the others leave. -/
def barePredicate : Dialect where
  name := "predicate"
  handles text := !isBlankText text
  parse text :=
    match Predicate.parse text with
    | .ok p => .ok p
    | .error e => .error (.statement (e.report text.toList))
  priority := 10

end Dialect

/-- Dialects by descending priority, those of equal priority in the order of their registration. -/
structure DialectRegistry where
  dialects : List Dialect

namespace DialectRegistry

/-- No dialects. -/
def empty : DialectRegistry := ⟨[]⟩

/-- The registry with one more dialect, behind all others of its priority. -/
def register (registry : DialectRegistry) (dialect : Dialect) : DialectRegistry :=
  ⟨(registry.dialects ++ [dialect]).mergeSort fun a b => b.priority ≤ a.priority⟩

/-- Registers the dialects one after the other. -/
def ofList (dialects : List Dialect) : DialectRegistry := dialects.foldl register empty

/-- Dialects that are gathered first and registered together. -/
structure Builder where
  dialects : List Dialect

namespace Builder

/-- Nothing gathered yet. -/
def empty : Builder := ⟨[]⟩

/-- One more dialect, behind those that were gathered before. -/
def withDialect (builder : Builder) (dialect : Dialect) : Builder :=
  ⟨builder.dialects ++ [dialect]⟩

/-- The registry of the gathered dialects. -/
def build (builder : Builder) : DialectRegistry := ofList builder.dialects

end Builder

/-- Statements, call notation and bare predicates. -/
def standard : DialectRegistry := ofList [.statement, .call, .barePredicate]

/-- The names of the dialects in the order in which they are asked. -/
def names (registry : DialectRegistry) : List String := registry.dialects.map Dialect.name

/-- The first dialect that takes charge of the text. -/
def detect? (registry : DialectRegistry) (text : String) : Option Dialect :=
  registry.dialects.find? fun dialect => dialect.handles text

/-- Reads the text with the dialect that takes charge of it. -/
def parse (registry : DialectRegistry) (text : String) : Except ParseError Predicate :=
  match registry.detect? text with
  | some dialect => dialect.parse text
  | none => .error (.noDialect text registry.names)

end DialectRegistry

end RecordQuery
