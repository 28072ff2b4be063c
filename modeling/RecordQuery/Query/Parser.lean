import RecordQuery.Unicode.Blank
import RecordQuery.Unicode.Alphabetic
import RecordQuery.Query.SyntaxError

/-!
# Parsers that note where they stop

A parser reads a text from its beginning. Its outcome holds the value together with the unread rest,
if it succeeds, and in any case the notes of all readings that stopped on the way. Notes never
influence a value, so what a parser accepts can be studied apart from what it reports.

## Implementation notes

A choice takes the first alternative that succeeds and starts each one at the same place. Nothing
else goes back: a repetition ends before the first item that fails. Recursion goes through
`Parser.recursive`, which lets a parser call itself on any text shorter than its own.
-/

namespace RecordQuery

/-- What comes of reading a text. -/
structure Outcome (α : Type) where
  /-- The value and the unread rest, or nothing if the text was refused. -/
  result : Option (α × List Char)
  /-- The notes of the readings that stopped, in the order in which they did. -/
  notes : List Note

/-- A parser turns a text into an outcome. -/
def Parser (α : Type) := List Char → Outcome α

namespace Parser

variable {α β : Type}

/-- Reads nothing and gives the value. -/
def succeed (a : α) : Parser α := fun s => ⟨some (a, s), []⟩

/-- Refuses the text with one note. -/
def refuse (note : Note) : Outcome α := ⟨none, [note]⟩

/-- Reads on with the parser that the first value selects. -/
def andThen (p : Parser α) (f : α → Parser β) : Parser β := fun s =>
  match p s with
  | ⟨none, notes⟩ => ⟨none, notes⟩
  | ⟨some (a, rest), notes⟩ =>
    let next := f a rest
    ⟨next.result, notes ++ next.notes⟩

instance : Monad Parser where
  pure := succeed
  bind := andThen

theorem bind_eq (p : Parser α) (f : α → Parser β) : p >>= f = andThen p f := rfl

/-- A sequence succeeds where its parts do, the second one on the rest of the first. -/
theorem andThen_result_eq_some_iff {p : Parser α} {f : α → Parser β} {s : List Char}
    {found : β × List Char} :
    (andThen p f s).result = some found ↔
      ∃ a rest, (p s).result = some (a, rest) ∧ (f a rest).result = some found := by
  unfold andThen
  rcases p s with ⟨_ | ⟨a, rest⟩, notes⟩
  · simp
  · constructor
    · intro h
      exact ⟨a, rest, rfl, h⟩
    · rintro ⟨b, tail, first, h⟩
      obtain ⟨rfl, rfl⟩ := Prod.mk.inj (Option.some.inj first)
      exact h

/-- Takes the second alternative if the first one refuses the text. -/
def otherwise (p q : Parser α) : Parser α := fun s =>
  match p s with
  | ⟨some found, notes⟩ => ⟨some found, notes⟩
  | ⟨none, notes⟩ =>
    let next := q s
    ⟨next.result, notes ++ next.notes⟩

instance : OrElse (Parser α) := ⟨fun p q => otherwise p (q ())⟩

/-- A choice gives what the first alternative gives, or else what the second one does. -/
theorem otherwise_result (p q : Parser α) (s : List Char) :
    (otherwise p q s).result = (p s).result.or (q s).result := by
  unfold otherwise
  rcases p s with ⟨_ | found, notes⟩ <;> rfl

/-- The value of the parser, or nothing where it refuses the text. -/
def optional (p : Parser α) : Parser (Option α) := (some <$> p) <|> succeed none

/-- As many items as follow each other, none included. -/
def many (p : Parser α) (s : List Char) : Outcome (List α) :=
  match p s with
  | ⟨none, notes⟩ => ⟨some ([], s), notes⟩
  | ⟨some (a, rest), notes⟩ =>
    if rest.length < s.length then
      let next := many p rest
      ⟨next.result.map fun (items, rest) => (a :: items, rest), notes ++ next.notes⟩
    else ⟨some ([a], rest), notes⟩
termination_by s.length

/-- As many items as follow each other, and at least one. -/
def many1 (p : Parser α) : Parser (List α) := do
  let first ← p
  let others ← many p
  return first :: others

/-- The parser that a body describes in terms of itself. The body may call it on any text shorter
than the one it was given. -/
def recursive (body : Parser α → Parser α) (s : List Char) : Outcome α :=
  body (fun rest => if rest.length < s.length then recursive body rest else ⟨none, []⟩) s
termination_by s.length

/-- One character that satisfies the condition. -/
def charWhere (accepts : Char → Bool) : Parser Char
  | [] => refuse (.raised ⟨0, .expected [.anyChar] none⟩)
  | c :: rest =>
    if accepts c then ⟨some (c, rest), []⟩
    else refuse (.raised ⟨rest.length + 1, .expected [.otherChar] (some c)⟩)

/-- One of the given characters. -/
def oneOf (allowed : List Char) : Parser Char
  | [] => refuse (.stopped 0 (allowed.map .char) none)
  | c :: rest =>
    if c ∈ allowed then ⟨some (c, rest), []⟩
    else refuse (.stopped (rest.length + 1) (allowed.map .char) (some c))

/-- The given character. -/
def char (c : Char) : Parser Char := oneOf [c]

/-- Any character but the given one. -/
def charOtherThan (refused : Char) : Parser Char
  | [] => refuse (.stopped 0 [.otherChar] none)
  | c :: rest =>
    if c = refused then refuse (.stopped (rest.length + 1) [.otherChar] (some c))
    else ⟨some (c, rest), []⟩

/-- The given characters, one after the other. -/
def chars : List Char → Parser Unit
  | [] => succeed ()
  | c :: rest => do
    let _ ← char c
    chars rest

/-- The end of the text. -/
def endOfInput : Parser Unit
  | [] => ⟨some ((), []), []⟩
  | c :: rest => refuse (.stopped (rest.length + 1) [.endOfInput] (some c))

/-- The blanks that stand here, if any. They leave no note. -/
def blanks : Parser Unit := fun s => ⟨some ((), skipBlanks s), []⟩

/-- The parser with blanks allowed on both sides. -/
def padded (p : Parser α) : Parser α := do
  blanks
  let a ← p
  blanks
  return a

/-- The notes of a reading taken together as one error. -/
def summary (notes : List Note) : List Note :=
  ((SyntaxError.furthest notes).map Note.raised).toList

/-- The parser under a name: an error at the very place where it began expects the construct as a
whole, and errors further on are kept. -/
def label (l : Construct) (p : Parser α) : Parser α := fun s =>
  let outcome := p s
  ⟨outcome.result, ((SyntaxError.furthest outcome.notes).map fun e =>
    if e.remaining = s.length then Note.raised ⟨e.remaining, e.reason.relabel l⟩
    else Note.raised e).toList⟩

/-- A name changes what is reported and nothing else. -/
@[simp]
theorem label_result (l : Construct) (p : Parser α) (s : List Char) :
    (label l p s).result = (p s).result := rfl

/-- A run of letters that spells the keyword. Another run is an error at its first letter. -/
def word (k : Keyword) : Parser Unit := fun s =>
  match many1 (charWhere isAlphabetic) s with
  | ⟨none, notes⟩ => ⟨none, summary notes⟩
  | ⟨some (letters, rest), notes⟩ =>
    if k.spelledBy letters then ⟨some ((), rest), summary notes⟩
    else refuse (.raised ⟨s.length, .keyword k⟩)

/-- A keyword with blanks allowed on both sides. -/
def keyword (k : Keyword) : Parser Unit := padded (word k)

/-- Reads the whole text: the value, or the furthest error. -/
def readAll (p : Parser α) (text : List Char) : Except SyntaxError α :=
  match p text with
  | ⟨some (a, _), _⟩ => .ok a
  | ⟨none, notes⟩ =>
    .error ((SyntaxError.furthest notes).getD ⟨text.length, .expected [] text.head?⟩)

end Parser

end RecordQuery
