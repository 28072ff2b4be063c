/-!
# Binary floating point in whole numbers

The finite values of a binary interchange format. A magnitude is written as its bit pattern, which
counts the magnitudes upwards from zero; every magnitude is a whole number of the least positive
one, its `units`. A quotient is rounded to the nearest magnitude, and to the even pattern if two are
equally near.
-/

namespace RecordQuery

/-- A power of two. -/
def twoPow (n : Nat) : Nat := Nat.pow 2 n

/-- Which of two equally near whole numbers a quotient is rounded to. -/
inductive Tie where
  | toEven
  | upward
deriving DecidableEq

/-- The whole number nearest to a quotient. -/
def Tie.round (tie : Tie) (dividend divisor : Nat) : Nat :=
  let floor := dividend / divisor
  let twice := 2 * (dividend % divisor)
  if twice < divisor then floor
  else if divisor < twice then floor + 1
  else match tie with
    | .toEven => if floor % 2 = 0 then floor else floor + 1
    | .upward => floor + 1

/-- A binary interchange format: the widths of its fraction and of its exponent. -/
structure BinaryFormat where
  fractionBits : Nat
  exponentBits : Nat
deriving DecidableEq

namespace BinaryFormat

/-- The format of 32 bits. -/
def single : BinaryFormat := ⟨23, 8⟩

/-- The format of 64 bits. -/
def double : BinaryFormat := ⟨52, 11⟩

variable (f : BinaryFormat)

/-- The amount by which a stored exponent exceeds the exponent that it stands for. -/
def bias : Nat := twoPow (f.exponentBits - 1) - 1

/-- The least positive magnitude is two to the power of minus this number. -/
def scale : Nat := f.bias + f.fractionBits - 1

/-- The pattern of infinity, which is also the number of finite magnitudes. -/
def infinity : Nat := (twoPow f.exponentBits - 1) * twoPow f.fractionBits

/-- The pattern of the sign. -/
def signBit : Nat := twoPow (f.exponentBits + f.fractionBits)

/-- A magnitude in units of the least positive one. -/
def units (pattern : Nat) : Nat :=
  let step := twoPow f.fractionBits
  if pattern < step then pattern else (step + pattern % step) * twoPow (pattern / step - 1)

/-- The pattern of the magnitude nearest to a quotient. It may reach or exceed that of infinity. -/
def nearest (dividend divisor : Nat) : Nat :=
  let scaled := dividend * twoPow f.scale
  let shift := (scaled / divisor).log2 - f.fractionBits
  shift * twoPow f.fractionBits + Tie.toEven.round scaled (divisor * twoPow shift)

end BinaryFormat

/-- A finite value of a binary format: a sign and the pattern of a magnitude. -/
structure Binary (f : BinaryFormat) where
  negative : Bool
  magnitude : Nat
  finite : magnitude < f.infinity
deriving DecidableEq

/-- The finite values of 64 bits. -/
abbrev Binary64 := Binary .double

namespace Binary

variable {f : BinaryFormat}

/-- The value with the sign and the pattern, unless the pattern is too large for a finite one. -/
def ofPattern? (f : BinaryFormat) (negative : Bool) (pattern : Nat) : Option (Binary f) :=
  if h : pattern < f.infinity then some ⟨negative, pattern, h⟩ else none

/-- The value nearest to a quotient with a sign, unless that is too large. -/
def nearest? (f : BinaryFormat) (negative : Bool) (dividend divisor : Nat) : Option (Binary f) :=
  ofPattern? f negative (f.nearest dividend divisor)

/-- The value nearest to a whole number, unless that is too large. -/
def ofInt? (f : BinaryFormat) (n : Int) : Option (Binary f) :=
  nearest? f (decide (n < 0)) n.natAbs 1

/-- The nearest value of another format, unless that is too large. -/
def convert? (x : Binary f) (g : BinaryFormat) : Option (Binary g) :=
  nearest? g x.negative (f.units x.magnitude) (twoPow f.scale)

/-- Whether the value is zero, of either sign. -/
def isZero (x : Binary f) : Bool := x.magnitude == 0

/-- The value with the sign of a zero removed. -/
def unsignedZero (x : Binary f) : Binary f := if x.isZero then { x with negative := false } else x

/-- Whether two values are the same number. The zeros of both signs are. -/
def sameNumber (x y : Binary f) : Bool := x.unsignedZero == y.unsignedZero

/-- The bit pattern with the sign. -/
def bits (x : Binary f) : Nat := (if x.negative then f.signBit else 0) + x.magnitude

end Binary

end RecordQuery
