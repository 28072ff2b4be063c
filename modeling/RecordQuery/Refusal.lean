import RecordQuery.Decimal.Literal

/-!
# Words of a refusal

A value that refuses to be represented says why in free words, which may end in a place: a line and
a column. Lines and columns count from one, so a place on line zero is no place and is left out, and
any other place is written without needless zeros.
-/

namespace RecordQuery

namespace Refusal

/-- The greatest line or column that is recognised as one. -/
def placeLimit : Nat := 18446744073709551615

/-- The number at the end of a text and the text before it. -/
def trailingNumber? (text : List Char) : Option (List Char × Nat) :=
  let digits := (text.reverse.takeWhile Decimal.isDigit).reverse
  let n := Decimal.ofDigits digits
  if digits.isEmpty || placeLimit < n then none
  else some (text.take (text.length - digits.length), n)

/-- The text before an ending, if the text has that ending. -/
def beforeEnding? (ending text : List Char) : Option (List Char) :=
  if ending.isSuffixOf text then some (text.take (text.length - ending.length)) else none

/-- The words before a place, its line and its column, if a text ends in a place. -/
def splitPlace? (text : List Char) : Option (List Char × Nat × Nat) := do
  let (text, column) ← trailingNumber? text
  let text ← beforeEnding? " column ".toList text
  let (text, line) ← trailingNumber? text
  let words ← beforeEnding? " at line ".toList text
  return (words, line, column)

/-- The words of a refusal as they are reported. -/
def report (cause : String) : String :=
  match splitPlace? cause.toList with
  | none => cause
  | some (words, line, column) =>
    if line = 0 then String.ofList words
    else String.ofList words ++ " at line " ++ toString line ++ " column " ++ toString column

end Refusal

end RecordQuery
