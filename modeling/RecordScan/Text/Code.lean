/-!
Contract: code points and the texts made of them.

Owns: the number of a unit, texts that may hold lone surrogates, and the
passage between such texts and strings.
Does not own: byte encodings (`RecordScan.Utf8`) or character classes.
-/

namespace RecordScan

/-- The number of a scanned unit: a byte value or a code point. -/
abbrev Code := Nat

/-- A text by its code points. Unlike a `String` it may hold lone surrogates. -/
abbrev Text := List Code

/-- The halves of a surrogate pair, which stand for no character alone. -/
def Code.isSurrogate (code : Code) : Bool :=
  0xD800 ≤ code && code ≤ 0xDFFF

/-- The surrogates that stand for single bytes, in a text that was made of bytes which are no
UTF-8. -/
def Code.standsForByte (code : Code) : Bool :=
  0xDC80 ≤ code && code ≤ 0xDCFF

/-- The last code point. -/
def Code.greatest : Code := 0x10FFFF

namespace Text

def ofString (string : String) : Text :=
  string.toList.map Char.toNat

/-- The string of a text without surrogates. -/
def toString (text : Text) : String :=
  String.ofList (text.map Char.ofNat)

/-- Whether some half of a surrogate pair stands in the text. -/
def hasSurrogate (text : Text) : Bool :=
  text.any Code.isSurrogate

end Text

end RecordScan
