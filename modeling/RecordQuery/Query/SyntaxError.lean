/-!
# Syntax errors

A syntax error says where a query text stops making sense and what could have stood there. Its place
is given by the number of characters that remain unread, so an error found in a text is the same
error in every text with that ending; a line and a column are computed only for the report.

While a text is read, every reading that stops leaves a note, also one that is later given up for
another. The reported error is the furthest of them, notes at one place being merged.
-/

namespace RecordQuery

/-- The keywords of the statement dialect. -/
inductive Keyword where
  | selectWord
  | fromWord
  | whereWord
  | andWord
  | orWord
deriving DecidableEq

namespace Keyword

/-- The keyword in capital letters. -/
def text : Keyword → String
  | selectWord => "SELECT"
  | fromWord => "FROM"
  | whereWord => "WHERE"
  | andWord => "AND"
  | orWord => "OR"

/-- Whether a run of letters spells the keyword, in any mixture of capital and small ASCII
letters. -/
def spelledBy (k : Keyword) (letters : List Char) : Bool :=
  letters.map Char.toUpper == k.text.toList

end Keyword

/-- The constructs that an error can name as a whole. -/
inductive Construct where
  | identifier
  | fieldName
  | collectionName
  | singleQuoted
  | doubleQuoted
  | comparison
  | group
  | equalCall
  | andCall
  | orCall
deriving DecidableEq

namespace Construct

/-- The name of a construct in an error. -/
def text : Construct → String
  | identifier => "identifier"
  | fieldName => "field name"
  | collectionName => "collection name"
  | singleQuoted => "single-quoted string"
  | doubleQuoted => "double-quoted string"
  | comparison => "comparison like language = 'Kotlin'"
  | group => "parenthesized expression"
  | equalCall => "equal(\"field\", \"value\")"
  | andCall => "and(expr, expr, ...)"
  | orCall => "or(expr, expr, ...)"

end Construct

/-- What could have stood where an error was found. -/
inductive Expectation where
  | char (c : Char)
  /-- Some character, at the end of the text. -/
  | anyChar
  /-- Another character than the one found. -/
  | otherChar
  | endOfInput
  | construct (c : Construct)
deriving DecidableEq

namespace Expectation

/-- A character between single quotes. -/
def quoted (c : Char) : String := String.ofList ['\x27', c, '\x27']

/-- The expectation in the words of the report. -/
def text : Expectation → String
  | char c => quoted c
  | anyChar => "any"
  | otherChar => "something else"
  | endOfInput => "end of input"
  | construct c => c.text

/-- A list of alternatives: the last one follows an "or", and commas stand before all but the
first. -/
def alternatives : List String → String
  | [] => "something else"
  | [a] => a
  | [a, b] => a ++ ", or " ++ b
  | a :: rest => a ++ ", " ++ alternatives rest

/-- The alternatives followed by those of the second list that are not among them. -/
def union (items more : List Expectation) : List Expectation :=
  items ++ more.filter fun item => item ∉ items

end Expectation

/-- Why a text could not be read on. -/
inductive Reason where
  /-- One of the items should have stood where `found` stands, or the text ends there. -/
  | expected (items : List Expectation) (found : Option Char)
  /-- Some other word stands in the place of a keyword. -/
  | keyword (k : Keyword)
deriving DecidableEq

namespace Reason

/-- The reason in the words of the report. -/
def text : Reason → String
  | expected items found =>
    "found " ++ (match found with | some c => Expectation.quoted c | none => "end of input") ++
      " expected " ++ Expectation.alternatives (items.map Expectation.text)
  | keyword k => "expected keyword '" ++ k.text ++ "'"

/-- The reason with the items replaced by a construct that begins at the same place. -/
def relabel (l : Construct) : Reason → Reason
  | expected _ found => expected [.construct l] found
  | keyword _ => expected [.construct l] none

end Reason

/-- A reason and the number of characters that remain from its place to the end of the text. -/
structure SyntaxError where
  remaining : Nat
  reason : Reason
deriving DecidableEq

/-- A trace that a reading leaves where it stops. -/
inductive Note where
  /-- A character stopped the reading of a token. -/
  | stopped (remaining : Nat) (items : List Expectation) (found : Option Char)
  /-- An error that has been put together already. -/
  | raised (e : SyntaxError)

namespace SyntaxError

/-- Of two errors at one place: a misspelt keyword wins, and otherwise the expected items are
merged, those of the longer list first. -/
def merge (e : SyntaxError) (reason : Reason) : SyntaxError :=
  match e.reason, reason with
  | .keyword _, _ => e
  | .expected _ _, .keyword k => ⟨e.remaining, .keyword k⟩
  | .expected items found, .expected more _ =>
    ⟨e.remaining, .expected
      (if items.length < more.length then Expectation.union more items
        else Expectation.union items more) found⟩

/-- The error that is reported after one more note: a note further on replaces the error, one at the
same place is merged with it, and an earlier one is dropped. -/
def follow (current : Option SyntaxError) (note : Note) : Option SyntaxError :=
  match current, note with
  | none, .stopped remaining items found => some ⟨remaining, .expected items found⟩
  | none, .raised e => some e
  | some current, .stopped remaining items found =>
    if remaining < current.remaining then some ⟨remaining, .expected items found⟩
    else if remaining = current.remaining then
      match current.reason with
      | .keyword _ => some current
      | .expected known old =>
        some ⟨remaining, .expected (Expectation.union known items) (old.or found)⟩
    else some current
  | some current, .raised e =>
    if e.remaining < current.remaining then some e
    else if e.remaining = current.remaining then some (current.merge e.reason)
    else some current

/-- The error that a list of notes amounts to, if there is any note. -/
def furthest (notes : List Note) : Option SyntaxError := notes.foldl follow none

/-- The line and the column, both from 1, of the character after the given ones. -/
def location (before : List Char) : Nat × Nat :=
  before.foldl (fun (line, column) c => if c = '\n' then (line + 1, 1) else (line, column + 1))
    (1, 1)

/-- The error in words, with its place in the text in which it was found. -/
def report (e : SyntaxError) (text : List Char) : String :=
  let (line, column) := location (text.take (text.length - e.remaining))
  "Line " ++ toString line ++ ", column " ++ toString column ++ ": " ++ e.reason.text

end SyntaxError

end RecordQuery
