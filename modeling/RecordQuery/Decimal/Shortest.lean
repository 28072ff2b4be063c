import RecordQuery.Decimal.Literal

/-!
# The shortest decimal of a binary value

A binary value is written with the fewest digits that read back as the same value. Of several
decimals with that many digits the nearest is taken. Which of two equally near ones is taken is for
the layout of the text to say.

## Implementation notes

For each number of digits only the two decimals next to the value need a test: if any decimal of
that many digits reads back, so does one of these two. The search ends with the exact expansion,
which reads back whatever the format.
-/

namespace RecordQuery

namespace Decimal

/-- A coefficient without zeros at its end, and the power of ten that makes up for them. -/
def stripZeros (coefficient : Nat) (exponent : Int) : Nat × Int :=
  if coefficient ≠ 0 ∧ coefficient % 10 = 0 then stripZeros (coefficient / 10) (exponent + 1)
  else (coefficient, exponent)
termination_by coefficient
decreasing_by omega

/-- The number of tenfold steps of a quotient over one: the quotient lies between ten to this power
and ten times that. -/
def magnitudeOrder (dividend divisor : Nat) : Int :=
  let guess : Int := digitCount dividend - digitCount divisor
  if divisor * tenPow guess.toNat ≤ dividend * tenPow (-guess).toNat then guess else guess - 1

variable (tie : Tie) (f : BinaryFormat) (pattern : Nat)

/-- The decimal at the given power of ten that reads back as the magnitude and is nearest to it. -/
def nearestAt? (exponent : Int) : Option (Nat × Int) :=
  let dividend := f.units pattern * tenPow (-exponent).toNat
  let divisor := twoPow f.scale * tenPow exponent.toNat
  let below := dividend / divisor
  let readsBack (coefficient : Nat) : Bool := nearestPattern f coefficient exponent == pattern
  let rounded := tie.round dividend divisor
  let other := if rounded = below then below + 1 else below
  if readsBack rounded then some (rounded, exponent)
  else if readsBack other then some (other, exponent)
  else none

/-- The number of digits that suffices for every magnitude of the usual formats. -/
def digitLimit : Nat := 17

/-- The shortest decimal of a positive magnitude. -/
def shortest : Nat × Int :=
  let order := magnitudeOrder (f.units pattern) (twoPow f.scale)
  let found := (List.range digitLimit).findSome? fun extra : Nat =>
    nearestAt? tie f pattern (order - extra)
  let (coefficient, exponent) := found.getD (f.units pattern * Nat.pow 5 f.scale, -(f.scale : Int))
  stripZeros coefficient exponent

end Decimal

/-- How a finite value is laid out. -/
structure FloatLayout where
  /-- Which of two equally near shortest decimals is written. -/
  tie : Tie
  /-- Whether a value of this order of magnitude is written without an exponent. -/
  positional : Int → Bool

namespace FloatLayout

/-- Digits with a point after the one of the given order, padded with zeros. At least one digit
stands on either side of the point. -/
def placePoint (digits : List Char) (order : Int) : List Char :=
  if order < 0 then '0' :: '.' :: List.replicate (-order - 1).toNat '0' ++ digits
  else
    let whole := order.toNat + 1
    let fraction := digits.drop whole
    digits.take whole ++ List.replicate (whole - digits.length) '0' ++
      '.' :: (if fraction.isEmpty then ['0'] else fraction)

/-- Digits with a point after the first one, if more follow, and an exponent with its sign. -/
def placeExponent (digits : List Char) (order : Int) : List Char :=
  let fraction := digits.drop 1
  digits.take 1 ++ (if fraction.isEmpty then [] else '.' :: fraction) ++
    'e' :: (if order < 0 then '-' else '+') :: order.natAbs.repr.toList

/-- The text of a finite value. -/
def write {f : BinaryFormat} (layout : FloatLayout) (x : Binary f) : String :=
  let sign := if x.negative then ['-'] else []
  if x.isZero then String.ofList (sign ++ ['0', '.', '0'])
  else
    let (coefficient, exponent) := Decimal.shortest layout.tie f x.magnitude
    let digits := coefficient.repr.toList
    let order := exponent + digits.length - 1
    String.ofList (sign ++
      if layout.positional order then placePoint digits order else placeExponent digits order)

/-- Values from 0.00001 up to sixteen digits before the point are written without an exponent,
and a tie goes to the even decimal. -/
def double : FloatLayout := ⟨.toEven, fun order => -5 ≤ order && order < 16⟩

/-- Values from 0.000001 up to thirteen digits before the point are written without an
exponent, and a tie goes to the even decimal. -/
def single : FloatLayout := ⟨.toEven, fun order => -6 ≤ order && order < 13⟩

/-- Every value is written without an exponent, and a tie goes to the decimal farther from zero. -/
def fixed : FloatLayout := ⟨.upward, fun _ => true⟩

end FloatLayout

end RecordQuery
