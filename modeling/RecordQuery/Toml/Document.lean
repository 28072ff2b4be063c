import RecordQuery.Toml.Quoted

/-!
# Documents of TOML

A document is a sequence of lines: keys with their values, headers of tables and of arrays of
tables, comments and blank lines. Arrays and inline tables may span lines, may end in a comma, and
may be nested up to a fixed depth. Inside the braces of an inline table a line may also end on
either side of an equals sign.
-/

namespace RecordQuery

namespace Toml

/-- The text after its leading spaces. -/
def skipSpace (s : List Char) : List Char := s.dropWhile isSpace

/-- What follows the text of a comment: the end of its line. -/
def afterComment? : List Char → Option (List Char)
  | [] => some []
  | c :: rest =>
    if (afterLineEnd? (c :: rest)).isSome then some (c :: rest)
    else if isControl c then none
    else afterComment? rest

/-- What follows blanks, line ends and comments. -/
def skipLayout (s : List Char) : Option (List Char) :=
  match s with
  | '#' :: rest => do
    let after ← afterComment? rest
    if after.length ≤ rest.length then skipLayout after else none
  | ' ' :: rest => skipLayout rest
  | '\t' :: rest => skipLayout rest
  | '\n' :: rest => skipLayout rest
  | '\r' :: rest => if rest.head? = some '\n' then skipLayout rest else none
  | s => some s
termination_by s.length

/-- What follows the rest of a line: blanks, perhaps a comment, and the end of the line or text. -/
def endOfLine? (s : List Char) : Option (List Char) :=
  let rest := match skipSpace s with
    | '#' :: comment => afterComment? comment
    | rest => some rest
  rest.bind fun
    | [] => some []
    | rest => afterLineEnd? rest

/-- Whether a character may stand in a key without quotes. -/
def isBareKeyChar (c : Char) : Bool := c.isAlphanum || c == '_' || c == '-'

/-- One part of a key and what follows it. -/
def keyPart? (s : List Char) : Option (String × List Char) :=
  match s with
  | '\x22' :: rest => (basicText rest).map fun (text, rest) => (String.ofList text, rest)
  | '\x27' :: rest => (literalText rest).map fun (text, rest) => (String.ofList text, rest)
  | _ =>
    let part := s.takeWhile isBareKeyChar
    if part.isEmpty then none else some (String.ofList part, s.dropWhile isBareKeyChar)

/-- The parts of a key before the last one, the last one, and what follows it and its blanks. -/
def keyParts? (s : List Char) : Option (List String × String × List Char) := do
  let (part, rest) ← keyPart? (skipSpace s)
  match skipSpace rest with
  | '.' :: more =>
    if more.length < s.length then
      let (path, last, rest) ← keyParts? more
      return (part :: path, last, rest)
    else none
  | rest => return ([], part, rest)
termination_by s.length

/-- The depth to which values may be nested, and the number of parts that a key may have. -/
def depthLimit : Nat := 80

/-- A key of at most as many parts as the limit allows, in the form of `keyParts?`. -/
def key? (s : List Char) : Option (List String × String × List Char) := do
  let (path, last, rest) ← keyParts? s
  if path.length < depthLimit then return (path, last, rest)
  none

/-- Items separated by commas up to the closing character, and what follows it. -/
def items? {α : Type} (item : List Char → Option (α × List Char)) (close : Char) (s : List Char) :
    Option (List α × List Char) := do
  let start ← skipLayout s
  match start with
  | [] => none
  | c :: rest =>
    if c = close then return ([], rest)
    let (a, rest) ← item start
    let next ← skipLayout rest
    match next with
    | [] => none
    | c :: rest =>
      if c = close then return ([a], rest)
      if c = ',' ∧ rest.length < s.length then
        let (others, rest) ← items? item close rest
        return (a :: others, rest)
      none
termination_by s.length

/-- A key, an equals sign and a value, and what follows them. What may stand around the equals sign
is for `skip` to say. -/
def pair? (skip : List Char → Option (List Char))
    (value? : List Char → Option (Value × List Char)) (s : List Char) :
    Option ((List String × String × Value) × List Char) := do
  let (path, key, rest) ← key? s
  match ← skip rest with
  | '=' :: rest =>
    let (v, rest) ← value? (← skip rest)
    return ((path, key, v), rest)
  | _ => none

/-- A value in which arrays and inline tables are nested at most to the given depth, and what
follows it. -/
def value? (depth : Nat) (s : List Char) : Option (Value × List Char) :=
  match s with
  | '[' :: rest =>
    match depth with
    | 0 => none
    | depth + 1 => do
      let (values, rest) ← items? (value? depth) ']' rest
      return (.array values, rest)
  | '\x7b' :: rest =>
    match depth with
    | 0 => none
    | depth + 1 => do
      let (pairs, rest) ← items? (pair? skipLayout (value? depth)) '\x7d' rest
      let entries ← pairs.foldlM (fun entries (path, key, v) =>
        Entries.assign key v path entries) []
      return (.table .closed entries, rest)
  | '\x22' :: _ => (quoted? s).map fun (text, rest) => (.string (String.ofList text), rest)
  | '\x27' :: _ => (quoted? s).map fun (text, rest) => (.string (String.ofList text), rest)
  | _ =>
    let (text, rest) := splitScalar s
    (scalar? text).map fun v => (v, rest)

/-- A document as far as it has been read: its entries, and the path of the last header. -/
structure Draft where
  entries : Entries
  current : List String

/-- Adds a line that is not blank to a draft. Gives the draft and what follows the line. -/
def Draft.addLine (draft : Draft) (line : List Char) : Option (Draft × List Char) := do
  match line with
  | '[' :: '[' :: rest =>
    let (path, key, rest) ← key? rest
    match rest with
    | ']' :: ']' :: rest =>
      let entries ← draft.entries.declareNext key path
      let rest ← endOfLine? rest
      return (⟨entries, path ++ [key]⟩, rest)
    | _ => none
  | '[' :: rest =>
    let (path, key, rest) ← key? rest
    match rest with
    | ']' :: rest =>
      let entries ← draft.entries.declare key path
      let rest ← endOfLine? rest
      return (⟨entries, path ++ [key]⟩, rest)
    | _ => none
  | _ =>
    let ((path, key, v), rest) ← pair? (fun s => some (skipSpace s)) (value? depthLimit) line
    let entries ← draft.entries.within (Entries.assign key v path) draft.current
    let rest ← endOfLine? rest
    return ({ draft with entries }, rest)

/-- Adds all lines of a text to a draft. -/
def Draft.addLines (draft : Draft) (s : List Char) : Option Entries := do
  let line ← skipLayout s
  match line with
  | [] => return draft.entries
  | _ =>
    let (draft, rest) ← draft.addLine line
    if rest.length < s.length then draft.addLines rest else none
termination_by s.length

/-- Reads a document. A byte order mark at its beginning is skipped. -/
def parse? (text : String) : Option Entries :=
  let s := match text.toList with
    | '\ufeff' :: rest => rest
    | s => s
  Draft.addLines ⟨[], []⟩ s

end Toml

end RecordQuery
