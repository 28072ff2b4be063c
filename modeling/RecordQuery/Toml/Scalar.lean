import RecordQuery.Toml.Value

/-!
# Unquoted values of TOML

Booleans, numbers, dates and times. Such a value is a run of characters that may have spaces within
it, such as the one between a date and a time, but neither begins nor ends with one.

## Implementation notes

The form of a number and its value are two matters. A number too large for its type, a prefix of a
base without digits, and digits in groups that end in something else are numbers in form; they are
read as `Value.valueless` and do no harm where nobody asks for the value. What digits in groups end
in may hold a tabulator, but no blank.
-/

namespace RecordQuery

namespace Toml

/-- Whether a character may stand in an unquoted value. -/
def isScalarChar (c : Char) : Bool :=
  c ∉ ['=', ',', '[', ']', '\x7b', '\x7d', ' ', '\t', '#', '\r', '\n']

/-- Whether a character is a space of a line: a blank or a tabulator. -/
def isSpace (c : Char) : Bool := c == ' ' || c == '\t'

/-- Whether a character is a hexadecimal digit. -/
def isHexDigit (c : Char) : Bool := c.isDigit || 'a' ≤ c.toLower && c.toLower ≤ 'f'

/-- The number that a digit stands for, in any base up to sixteen. -/
def digitValue (c : Char) : Nat :=
  if c.isDigit then c.toNat - 48 else c.toLower.toNat - 87

/-- The number that digits stand for in a base. -/
def ofDigits (base : Nat) (digits : List Char) : Nat :=
  digits.foldl (fun n c => base * n + digitValue c) 0

/-- Whether a whole number lies in the range of signed 128 bits. -/
def fitsSigned128 (n : Int) : Bool :=
  -170141183460469231731687303715884105728 ≤ n && n ≤ 170141183460469231731687303715884105727

/-- Whether a whole number lies in the range of unsigned 128 bits. -/
def fitsUnsigned128 (n : Int) : Bool := 0 ≤ n && n ≤ 340282366920938463463374607431768211455

/-- A whole number in the range of signed or in that of unsigned 128 bits. -/
def boundedInteger (n : Int) : Value :=
  if fitsSigned128 n || fitsUnsigned128 n then .integer n else .valueless

/-- Digits with single underscores between them, without the underscores. -/
def groupedDigits? (accepts : Char → Bool) : List Char → Option (List Char)
  | [] => none
  | [c] => if accepts c then some [c] else none
  | c :: '_' :: rest => if accepts c then (groupedDigits? accepts rest).map (c :: ·) else none
  | c :: rest => if accepts c then (groupedDigits? accepts rest).map (c :: ·) else none

/-- A whole number in a base, given by its digits. Without any it has no value. -/
def basedNumber? (base : Nat) (accepts : Char → Bool) (digits : List Char) : Option Value :=
  if digits.isEmpty then some .valueless
  else (groupedDigits? accepts digits).map fun digits => boundedInteger (ofDigits base digits)

/-- Whether every underscore stands between two digits. -/
def wellGrouped (accepts : Char → Bool) (text : List Char) : Bool := follows false text
where
  follows (afterDigit : Bool) : List Char → Bool
    | [] => true
    | ['_'] => false
    | '_' :: c :: rest => afterDigit && accepts c && follows true rest
    | c :: rest => follows (accepts c) rest

/-- A decimal whole number, given in full and without its sign. If digits in groups end in something
else, it has no value. -/
def wholeNumber? (text unsigned : List Char) : Option Value :=
  let rest := unsigned.dropWhile Char.isDigit
  let grouped := rest.isEmpty || rest.head? == some '_' && ' ' ∉ rest
  let zeroFirst := unsigned.head? == some '0' && unsigned.length > 1
  if unsigned.isEmpty || !grouped || zeroFirst || !wellGrouped isHexDigit text then none
  else
    let (negative, digits) := Decimal.splitSign (text.filter fun c => c != '_')
    let n : Int := ofDigits 10 digits
    some (if digits.all Char.isDigit then boundedInteger (if negative then -n else n)
      else .valueless)

/-- A number with a fraction or an exponent, given in full and without its sign. Digits stand on
both sides of a point. -/
def floatNumber? (text unsigned : List Char) : Option Value := do
  let plain := text.filter fun c => c != '_'
  let decimal ← Decimal.parse? plain
  let (whole, fraction, _) := Decimal.splitPoint (Decimal.splitSign plain).2
  let zeroFirst := unsigned.head? == some '0' && whole.length > 1
  let complete := !whole.isEmpty && (!fraction.isEmpty || '.' ∉ plain)
  if zeroFirst || !complete || !wellGrouped Char.isDigit text then none
  match decimal.toBinary? .double with
  | some x => return .float (.finite x)
  | none => return .valueless

/-- A number of any kind. -/
def number? (text : List Char) : Option Value :=
  match text with
  | '0' :: 'x' :: digits => basedNumber? 16 isHexDigit digits
  | '0' :: 'o' :: digits => basedNumber? 8 (fun c => '0' ≤ c && c ≤ '7') digits
  | '0' :: 'b' :: digits => basedNumber? 2 (fun c => c == '0' || c == '1') digits
  | _ =>
    let (negative, unsigned) := Decimal.splitSign text
    if unsigned = ['i', 'n', 'f'] then some (.float (.infinite negative))
    else if unsigned = ['n', 'a', 'n'] then some (.float .notANumber)
    else if unsigned.any fun c => c == '.' || c == 'e' || c == 'E' then floatNumber? text unsigned
    else wholeNumber? text unsigned

/-- The number that two digits stand for. -/
def twoDigits? (a b : Char) : Option Nat :=
  if a.isDigit && b.isDigit then some (10 * digitValue a + digitValue b) else none

/-- Whether a year of the Gregorian calendar has a 29th of February. -/
def isLeapYear (year : Nat) : Bool := year % 4 == 0 && (year % 100 != 0 || year % 400 == 0)

/-- The number of days of a month. -/
def daysOfMonth (year month : Nat) : Nat :=
  if month = 2 then (if isLeapYear year then 29 else 28)
  else if month = 4 ∨ month = 6 ∨ month = 9 ∨ month = 11 then 30
  else 31

/-- What follows a valid date. -/
def afterDate? : List Char → Option (List Char)
  | y₁ :: y₂ :: y₃ :: y₄ :: '-' :: m₁ :: m₂ :: '-' :: d₁ :: d₂ :: rest => do
    let century ← twoDigits? y₁ y₂
    let year ← twoDigits? y₃ y₄
    let month ← twoDigits? m₁ m₂
    let day ← twoDigits? d₁ d₂
    if 1 ≤ month ∧ month ≤ 12 ∧ 1 ≤ day ∧ day ≤ daysOfMonth (100 * century + year) month then
      some rest
    else none
  | _ => none

/-- What follows the seconds of a time and their fraction, if there are any. -/
def afterSeconds? : List Char → Option (List Char)
  | ':' :: s₁ :: s₂ :: rest => do
    let second ← twoDigits? s₁ s₂
    if second > 60 then none
    match rest with
    | '.' :: fraction =>
      if (fraction.takeWhile Char.isDigit).isEmpty then none
      else some (fraction.dropWhile Char.isDigit)
    | _ => some rest
  | ':' :: _ => none
  | rest => some rest

/-- What follows a valid time. -/
def afterTime? : List Char → Option (List Char)
  | h₁ :: h₂ :: ':' :: m₁ :: m₂ :: rest => do
    let hour ← twoDigits? h₁ h₂
    let minute ← twoDigits? m₁ m₂
    if hour ≤ 23 ∧ minute ≤ 59 then afterSeconds? rest else none
  | _ => none

/-- Whether a text is the distance of a local time from the universal one. -/
def isOffset : List Char → Bool
  | ['Z'] => true
  | ['z'] => true
  | [sign, h₁, h₂, ':', m₁, m₂] =>
    (sign == '+' || sign == '-') &&
      match twoDigits? h₁ h₂, twoDigits? m₁ m₂ with
      | some hour, some minute => decide (hour ≤ 23 ∧ minute ≤ 59)
      | _, _ => false
  | _ => false

/-- Whether a text is a date, a time, or a date and a time with or without an offset. -/
def isDateTime (text : List Char) : Bool :=
  match afterDate? text with
  | some [] => true
  | some (separator :: rest) =>
    (separator == 'T' || separator == 't' || separator == ' ') &&
      match afterTime? rest with
      | some rest => rest.isEmpty || isOffset rest
      | none => false
  | none => afterTime? text == some []

/-- The value of a run of characters. -/
def scalar? (text : List Char) : Option Value :=
  if text = ['t', 'r', 'u', 'e'] then some (.boolean true)
  else if text = ['f', 'a', 'l', 's', 'e'] then some (.boolean false)
  else if isDateTime text then some .dateTime
  else number? text

/-- Whether an unquoted value goes on at the front of a text. It goes on across spaces, unless they
stand before a quoted value or at the end. -/
def scalarContinues : List Char → Bool
  | [] => false
  | c :: rest =>
    isScalarChar c ||
      isSpace c && (rest.dropWhile isSpace).head?.any fun c =>
        isScalarChar c && c != '\x22' && c != '\x27'

/-- The characters of an unquoted value and what follows them. -/
def splitScalar : List Char → List Char × List Char
  | [] => ([], [])
  | c :: rest =>
    if scalarContinues (c :: rest) then
      let (text, rest) := splitScalar rest
      (c :: text, rest)
    else ([], c :: rest)

end Toml

end RecordQuery
