import RecordScan.Utf8.Basic

/-!
Contract: encoding texts in UTF-8.

Owns: the bytes of a code point and of a text. A text with a lone surrogate has
no encoding, and the defect points at the bytes of the part before it.
-/

namespace RecordScan.Utf8

/-- The continuation byte that carries the low six bits. -/
def tailByte (code : Code) : UInt8 :=
  (0x80 + code % 0x40).toUInt8

/-- The bytes of a code point, by the width it needs. -/
def encodeCode (code : Code) : List UInt8 :=
  if code < 0x80 then [code.toUInt8]
  else if code < 0x800 then [(0xC0 + code / 0x40).toUInt8, tailByte code]
  else if code < 0x10000 then
    [(0xE0 + code / 0x1000).toUInt8, tailByte (code / 0x40), tailByte code]
  else
    [(0xF0 + code / 0x40000).toUInt8, tailByte (code / 0x1000), tailByte (code / 0x40),
      tailByte code]

/-- The bytes of a text, surrogates included. -/
def encodeAll (text : Text) : List UInt8 :=
  text.flatMap encodeCode

/-- The bytes of a text without surrogates. -/
def encode (text : Text) : Except Defect (List UInt8) :=
  if text.hasSurrogate then
    .error ⟨(encodeAll (text.takeWhile fun code => !code.isSurrogate)).length, .surrogate⟩
  else .ok (encodeAll text)

end RecordScan.Utf8
