import RecordQuery.Unicode.Ranges

/-!
# Blank characters

The characters with the property White_Space. They may stand around every token of a query and are
trimmed from textual numbers.
-/

namespace RecordQuery

/-- The code points with the property White_Space. -/
def blankRanges : CodeRanges :=
  [(0x9, 0xD), (0x20, 0x20), (0x85, 0x85), (0xA0, 0xA0), (0x1680, 0x1680), (0x2000, 0x200A),
    (0x2028, 0x2029), (0x202F, 0x202F), (0x205F, 0x205F), (0x3000, 0x3000)]

/-- Whether a character is blank: it has the property White_Space. -/
def isBlank (c : Char) : Bool := blankRanges.has c.toNat

/-- The text after its leading blanks. -/
def skipBlanks (s : List Char) : List Char := s.dropWhile isBlank

/-- The text without the blanks at either end. -/
def trimBlanks (s : List Char) : List Char :=
  (skipBlanks (skipBlanks s).reverse).reverse

end RecordQuery
