import RecordQuery.Toml.Scalar

/-!
# Quoted text of TOML

Basic strings stand between double quotes and know escapes, literal strings stand between single
quotes and know none. Between three quotes either may span lines.
-/

namespace RecordQuery

namespace Toml

/-- Whether a character is a control character other than the tabulator. -/
def isControl (c : Char) : Bool := (c.toNat < 32 && c != '\t') || c.toNat == 127

/-- The character of a row of hexadecimal digits. A surrogate is none. -/
def charOfHex? (digits : List Char) : Option Char :=
  if digits.all isHexDigit then
    let n := ofDigits 16 digits
    if n.isValidChar then some (Char.ofNat n) else none
  else none

/-- The character of an escape, given without its backslash, and what follows it. -/
def escape? : List Char → Option (Char × List Char)
  | 'b' :: rest => some ('\x08', rest)
  | 't' :: rest => some ('\t', rest)
  | 'n' :: rest => some ('\n', rest)
  | 'f' :: rest => some ('\x0c', rest)
  | 'r' :: rest => some ('\r', rest)
  | 'e' :: rest => some ('\x1b', rest)
  | '\x22' :: rest => some ('\x22', rest)
  | '\\' :: rest => some ('\\', rest)
  | 'x' :: rest => hex 2 rest
  | 'u' :: rest => hex 4 rest
  | 'U' :: rest => hex 8 rest
  | _ => none
where
  hex (count : Nat) (rest : List Char) : Option (Char × List Char) :=
    if rest.length < count then none
    else (charOfHex? (rest.take count)).map fun c => (c, rest.drop count)

/-- The content of a basic string on one line, after its opening quote, and what follows it. -/
def basicText (s : List Char) : Option (List Char × List Char) :=
  match s with
  | [] => none
  | '\x22' :: rest => some ([], rest)
  | '\\' :: rest => do
    let (c, after) ← escape? rest
    if after.length ≤ rest.length then
      let (text, after) ← basicText after
      return (c :: text, after)
    else none
  | c :: rest => do
    if isControl c then none
    let (text, rest) ← basicText rest
    return (c :: text, rest)
termination_by s.length

/-- The content of a literal string on one line, after its opening quote, and what follows it. -/
def literalText : List Char → Option (List Char × List Char)
  | [] => none
  | '\x27' :: rest => some ([], rest)
  | c :: rest =>
    if isControl c then none
    else (literalText rest).map fun (text, rest) => (c :: text, rest)

/-- The closing quotes of a string of several lines, if three of them stand here: up to two more may
precede them and belong to the content. -/
def closing? (quote : Char) (s : List Char) : Option (List Char × List Char) :=
  let count := min (s.takeWhile (· == quote)).length 5
  if count < 3 then none else some (List.replicate (count - 3) quote, s.drop count)

/-- What follows the end of a line, if it ends here. -/
def afterLineEnd? : List Char → Option (List Char)
  | '\n' :: rest => some rest
  | '\r' :: '\n' :: rest => some rest
  | _ => none

/-- The text after its leading blanks, tabulators and line ends. -/
def skipLines : List Char → List Char
  | ' ' :: rest => skipLines rest
  | '\t' :: rest => skipLines rest
  | '\n' :: rest => skipLines rest
  | '\r' :: '\n' :: rest => skipLines rest
  | s => s

/-- What follows a backslash at the end of a line: the text without the blanks and line ends. -/
def afterContinuation? (s : List Char) : Option (List Char) :=
  match afterLineEnd? (s.dropWhile isSpace) with
  | some rest => some (skipLines rest)
  | none => none

/-- The content of a basic string of several lines and what follows it. -/
def basicLines (s : List Char) : Option (List Char × List Char) :=
  match closing? '\x22' s with
  | some found => some found
  | none =>
    match s with
    | [] => none
    | '\\' :: rest =>
      match afterContinuation? rest with
      | some after => if after.length ≤ rest.length then basicLines after else none
      | none => do
        let (c, after) ← escape? rest
        if after.length ≤ rest.length then
          let (text, after) ← basicLines after
          return (c :: text, after)
        else none
    | c :: rest => do
      if isControl c && (afterLineEnd? (c :: rest)).isNone then none
      let (text, rest) ← basicLines rest
      return (c :: text, rest)
termination_by s.length

/-- The content of a literal string of several lines and what follows it. -/
def literalLines (s : List Char) : Option (List Char × List Char) :=
  match closing? '\x27' s with
  | some found => some found
  | none =>
    match s with
    | [] => none
    | c :: rest => do
      if isControl c && (afterLineEnd? (c :: rest)).isNone then none
      let (text, rest) ← literalLines rest
      return (c :: text, rest)
termination_by s.length

/-- The text without a line end at its very beginning. -/
def dropLineEnd (s : List Char) : List Char := (afterLineEnd? s).getD s

/-- A quoted string in any of its four forms, and what follows it. -/
def quoted? : List Char → Option (List Char × List Char)
  | '\x22' :: '\x22' :: '\x22' :: rest => basicLines (dropLineEnd rest)
  | '\x27' :: '\x27' :: '\x27' :: rest => literalLines (dropLineEnd rest)
  | '\x22' :: rest => basicText rest
  | '\x27' :: rest => literalText rest
  | _ => none

end Toml

end RecordQuery
