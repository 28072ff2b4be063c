import RecordQuery.Unicode.Numeric
import RecordQuery.Query.Parser

/-!
# Names and literals

The names and the literals of both dialects. A name is bare or stands between double quotes or
backticks, a literal stands between single or double quotes. In every quoted form but the last the
delimiter is written twice to stand for itself; between the double quotes of a literal a backslash
does that service.
-/

namespace RecordQuery

namespace Parser

/-- A name without quotes: a run of letters, digits and underscores. -/
def bareName : Parser String :=
  label .identifier do
    let name ← many1 (charWhere isNameChar)
    return String.ofList name

/-- A delimiter written twice. -/
def doubled (delimiter : Char) : Parser Char := do
  let _ ← char delimiter
  char delimiter

/-- A name between two delimiters. -/
def delimitedName (delimiter : Char) : Parser String := do
  let _ ← char delimiter
  let name ← many (doubled delimiter <|> charWhere fun c => c != delimiter)
  let _ ← char delimiter
  return String.ofList name

/-- A field or collection name in any of its three forms. -/
def fieldName : Parser String :=
  label .fieldName (bareName <|> delimitedName '\x22' <|> delimitedName '\x60')

/-- A literal between single quotes. -/
def singleQuoted : Parser String :=
  label .singleQuoted do
    let _ ← char '\x27'
    let value ← many (doubled '\x27' <|> charOtherThan '\x27')
    let _ ← char '\x27'
    return String.ofList value

/-- A double quote or a backslash after a backslash. -/
def escaped : Parser Char := do
  let _ ← char '\\'
  oneOf ['\x22', '\\']

/-- A literal between double quotes. -/
def doubleQuoted : Parser String :=
  label .doubleQuoted do
    let _ ← char '\x22'
    let value ← many (escaped <|> charOtherThan '\x22')
    let _ ← char '\x22'
    return String.ofList value

end Parser

end RecordQuery
