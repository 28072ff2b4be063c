import RecordQuery.Unicode.Blank
import RecordQuery.Decimal.Binary

/-!
# Decimal numbers as text

A decimal number is written with ASCII digits, an optional sign, point and exponent. It stands for a
whole coefficient times a power of ten and is rounded once, to the nearest value of a binary format.

## Implementation notes

Powers of ten are formed only for decimals near the range of the format. A decimal beyond it is
recognised by its number of digits and its exponent, so that a long exponent costs nothing.
-/

namespace RecordQuery

/-- A power of ten. -/
def tenPow (n : Nat) : Nat := Nat.pow 10 n

/-- A sign and a coefficient times a power of ten. -/
structure Decimal where
  negative : Bool
  coefficient : Nat
  exponent : Int
deriving DecidableEq

namespace Decimal

/-- The number of decimal digits, none for zero. -/
def digitCount (n : Nat) : Nat := if n = 0 then 0 else digitCount (n / 10) + 1
termination_by n
decreasing_by omega

/-- Whether a character is one of the ten ASCII digits. -/
def isDigit (c : Char) : Bool := '0' ≤ c && c ≤ '9'

/-- The number that a row of digits stands for. -/
def ofDigits (digits : List Char) : Nat :=
  digits.foldl (fun n c => 10 * n + (c.toNat - '0'.toNat)) 0

/-- A sign, if there is one, and what follows it. -/
def splitSign : List Char → Bool × List Char
  | '-' :: rest => (true, rest)
  | '+' :: rest => (false, rest)
  | s => (false, s)

/-- The exponent after a coefficient: nothing stands for zero. -/
def exponent? : List Char → Option Int
  | [] => some 0
  | e :: rest =>
    let (negative, digits) := splitSign rest
    if (e = 'e' ∨ e = 'E') ∧ digits ≠ [] ∧ digits.all isDigit then
      some (if negative then -(ofDigits digits : Int) else ofDigits digits)
    else none

/-- The digits before and after the point of a coefficient, and what follows it. -/
def splitPoint (s : List Char) : List Char × List Char × List Char :=
  let whole := s.takeWhile isDigit
  match s.dropWhile isDigit with
  | '.' :: rest => (whole, rest.takeWhile isDigit, rest.dropWhile isDigit)
  | rest => (whole, [], rest)

/-- Reads a decimal number that makes up the whole text. -/
def parse? (text : List Char) : Option Decimal :=
  let (negative, s) := splitSign text
  let (whole, fraction, rest) := splitPoint s
  if whole = [] ∧ fraction = [] then none
  else (exponent? rest).map fun e => ⟨negative, ofDigits (whole ++ fraction), e - fraction.length⟩

/-- The pattern of the magnitude nearest to a coefficient times a power of ten. -/
def nearestPattern (f : BinaryFormat) (coefficient : Nat) (exponent : Int) : Nat :=
  match exponent with
  | .ofNat e => f.nearest (coefficient * tenPow e) 1
  | .negSucc e => f.nearest coefficient (tenPow (e + 1))

/-- The nearest value of a binary format, unless the decimal is too large for it. -/
def toBinary? (f : BinaryFormat) (d : Decimal) : Option (Binary f) :=
  let order := d.exponent + digitCount d.coefficient
  if d.coefficient = 0 ∨ order ≤ -(f.scale + 1 : Int) then Binary.ofPattern? f d.negative 0
  else if order > f.bias + 2 then none
  else Binary.ofPattern? f d.negative (nearestPattern f d.coefficient d.exponent)

/-- Reads a finite number from a text, blanks at either end aside. -/
def readNumber (text : String) : Option Binary64 :=
  (parse? (trimBlanks text.toList)).bind (toBinary? .double)

end Decimal

end RecordQuery
