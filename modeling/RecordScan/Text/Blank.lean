import RecordScan.Text.Code

/-!
Contract: the blank characters.

Owns: the two classes of blanks. `isBlank` is what a value is stripped of at
its left end; `isSpace` is the smaller class allowed around a numeral, without
the four information separators.
-/

namespace RecordScan.Text

/-- White space of the Unicode standard, as inclusive ranges in order. -/
def spaceRanges : List (Code × Code) :=
  [(0x09, 0x0D), (0x20, 0x20), (0x85, 0x85), (0xA0, 0xA0), (0x1680, 0x1680),
   (0x2000, 0x200A), (0x2028, 0x2029), (0x202F, 0x202F), (0x205F, 0x205F),
   (0x3000, 0x3000)]

def isSpace (code : Code) : Bool :=
  spaceRanges.any fun range => range.1 ≤ code && code ≤ range.2

/-- White space and the information separators U+001C to U+001F. -/
def isBlank (code : Code) : Bool :=
  isSpace code || (0x1C ≤ code && code ≤ 0x1F)

/-- The text without its leading blanks. -/
def stripLeft (text : Text) : Text :=
  text.dropWhile isBlank

/-- The text without the white space around it. -/
def stripSpace (text : Text) : Text :=
  ((text.dropWhile isSpace).reverse.dropWhile isSpace).reverse

end RecordScan.Text
