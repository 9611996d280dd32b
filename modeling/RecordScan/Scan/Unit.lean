import RecordScan.Fault
import RecordScan.Utf8.Decode
import RecordScan.Utf8.Encode

/-!
Contract: units of a scan, the literals that stand for one, and patterns.

Owns: reading a literal as a byte or a character, the bytes of a unit, the ASCII
classes, and patterns, which are a literal or a class of units.
-/

namespace RecordScan

/-! ## Literals as units -/

/-- The byte a literal stands for: a number in range, one byte, or one ASCII character. -/
def Literal.byte? (literal : Literal) : Except Fault Code :=
  match literal with
  | .integer value =>
      if 0 ≤ value ∧ value ≤ 0xFF then .ok value.toNat else .error (.byteRange value)
  | .bytes [byte] => .ok byte.toNat
  | .text [code] => if code < 0x80 then .ok code else .error (.notOneByte literal)
  | _ => .error (.notOneByte literal)

/-- The character a literal stands for: one character, the number of a code point, or
the UTF-8 form of one character. -/
def Literal.character? (literal : Literal) : Except Fault Code :=
  match literal with
  | .text [code] => .ok code
  | .integer value =>
      if value < -0x80000000 ∨ 0x80000000 ≤ value then .error .codeOverflow
      else if 0 ≤ value ∧ value ≤ Code.greatest then .ok value.toNat
      else .error .codeRange
  | .bytes encoded =>
      match Utf8.decode encoded with
      | .ok [code] => .ok code
      | _ => .error (.notOneCharacter literal)
  | _ => .error (.notOneCharacter literal)

namespace Mode

/-- The unit a literal stands for. -/
def unit? (mode : Mode) (literal : Literal) : Except Fault Code :=
  match mode with
  | .bytes => literal.byte?
  | .text => literal.character?

/-- The bytes of a unit as they stand in a buffer. -/
def encodeUnit (mode : Mode) (code : Code) : Except Fault (List UInt8) :=
  match mode with
  | .bytes => .ok [code.toUInt8]
  | .text => if code.isSurrogate then .error (.unencodable code) else .ok (Utf8.encodeCode code)

end Mode

/-! ## Classes of units -/

namespace Code

def isAsciiDigit (code : Code) : Bool :=
  0x30 ≤ code && code ≤ 0x39

def isAsciiLetter (code : Code) : Bool :=
  let lowered := code ||| 0x20
  0x61 ≤ lowered && lowered ≤ 0x7A

def isAsciiBlank (code : Code) : Bool :=
  code = 0x20 || code = 0x09 || code = 0x0A || code = 0x0C || code = 0x0D

end Code

/-! ## Patterns -/

/-- What a consumer matches: the unit of a literal, or every unit of a class. -/
inductive Pattern where
  | literal (given : Literal)
  | satisfying (test : Code → Bool)

/-- The class of units a pattern matches. A literal that stands for no unit is refused. -/
def Pattern.test? (pattern : Pattern) (mode : Mode) : Except Fault (Code → Bool) :=
  match pattern with
  | .literal given => (mode.unit? given).map fun unit code => code == unit
  | .satisfying test => .ok test

end RecordScan
