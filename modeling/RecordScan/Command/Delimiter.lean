import RecordScan.Scan.Unit

/-!
Contract: delimiters as they are typed.

Owns: the escapes of a delimiter. A delimiter with a backslash is read byte by
byte from its UTF-8 form, so that a character outside ASCII becomes as many
characters as it has bytes, and a lone surrogate, which has none, is refused; a
delimiter without a backslash stands as it is.
Does not own: the names of characters. Escapes by name are read by a table.
-/

namespace RecordScan

/-- The characters that have names, by the bytes of the name. -/
abbrev CharacterNames := List UInt8 → Option Char

namespace Delimiter

/-- What an escape stands for, or why it stands for nothing, and how many bytes after its
letter belong to it. -/
structure Reading where
  result : Except EscapeReason Text
  taken : Nat

def isHex (byte : UInt8) : Bool :=
  let code := byte.toNat
  (0x30 ≤ code && code ≤ 0x39) || (0x41 ≤ code && code ≤ 0x46) || (0x61 ≤ code && code ≤ 0x66)

def hexValue (byte : UInt8) : Nat :=
  let code := byte.toNat
  if code ≤ 0x39 then code - 0x30 else if code ≤ 0x46 then code - 0x37 else code - 0x57

def isOctal (byte : UInt8) : Bool :=
  0x30 ≤ byte.toNat && byte.toNat ≤ 0x37

/-- An escape of exactly `count` hexadecimal digits. -/
def readHex (count : Nat) (short : EscapeReason) (after : List UInt8) : Reading :=
  let digits := (after.take count).takeWhile isHex
  let code := digits.foldl (fun code digit => code * 16 + hexValue digit) 0
  if digits.length < count then ⟨.error short, digits.length⟩
  else if Code.greatest < code then ⟨.error .aboveGreatest, count⟩
  else ⟨.ok [code], count⟩

/-- An escape of one to three octal digits, the first of which is its letter. -/
def readOctal (letter : UInt8) (after : List UInt8) : Reading :=
  let digits := (after.take 2).takeWhile isOctal
  let code := (letter :: digits).foldl (fun code digit => code * 8 + (digit.toNat - 0x30)) 0
  ⟨.ok [code], digits.length⟩

/-- An escape by name. -/
def readName (names : CharacterNames) : List UInt8 → Reading
  | 0x7B :: rest =>
      let name := rest.takeWhile (· != 0x7D)
      if name.length = rest.length then ⟨.error .malformedName, 1 + rest.length⟩
      else if name.isEmpty then ⟨.error .malformedName, 1⟩
      else
        match names name with
        | some char => ⟨.ok [char.toNat], name.length + 2⟩
        | none => ⟨.error .unknownName, name.length + 2⟩
  | _ => ⟨.error .malformedName, 0⟩

/-- The escape whose letter follows a backslash. An unknown letter keeps its backslash. -/
def readEscape (names : CharacterNames) (letter : UInt8) (after : List UInt8) : Reading :=
  match Char.ofNat letter.toNat with
  | '\n' => ⟨.ok [], 0⟩
  | 'a' => ⟨.ok [0x07], 0⟩
  | 'b' => ⟨.ok [0x08], 0⟩
  | 't' => ⟨.ok [0x09], 0⟩
  | 'n' => ⟨.ok [0x0A], 0⟩
  | 'v' => ⟨.ok [0x0B], 0⟩
  | 'f' => ⟨.ok [0x0C], 0⟩
  | 'r' => ⟨.ok [0x0D], 0⟩
  | 'x' => readHex 2 .hexByte after
  | 'u' => readHex 4 .hexShort after
  | 'U' => readHex 8 .hexLong after
  | 'N' => readName names after
  | char =>
      if isOctal letter then readOctal letter after
      else if char = '\\' || char = '\'' || char = '"' then ⟨.ok [letter.toNat], 0⟩
      else ⟨.ok [0x5C, letter.toNat], 0⟩

/-- Reads bytes that start at `offset`. -/
def unescapeFrom (names : CharacterNames) (offset : Nat) (bytes : List UInt8) :
    Except EscapeDefect Text :=
  match bytes with
  | [] => .ok []
  | [byte] =>
      if byte = 0x5C then .error (.unread offset offset .endOfText) else .ok [byte.toNat]
  | byte :: letter :: after =>
      if byte = 0x5C then
        let reading := readEscape names letter after
        match reading.result with
        | .error reason => .error (.unread offset (offset + 1 + reading.taken) reason)
        | .ok found =>
            (unescapeFrom names (offset + 2 + reading.taken) (after.drop reading.taken)).map
              (found ++ ·)
      else (unescapeFrom names (offset + 1) (letter :: after)).map (byte.toNat :: ·)
termination_by bytes.length

/-- The text a typed delimiter stands for. -/
def unescape (names : CharacterNames) (raw : Text) : Except Fault Text :=
  if raw.contains 0x5C then
    match raw.surrogateDefect? Code.isSurrogate with
    | some defect => .error (.escape defect)
    | none => (unescapeFrom names 0 (Utf8.encodeAll raw)).mapError .escape
  else .ok raw

/-- A typed delimiter without its escapes. -/
def plain (names : CharacterNames) (raw : Literal) : Except Fault Literal :=
  match raw with
  | .text text => (unescape names text).map Literal.text
  | other => .ok other

/-- The unit a typed delimiter stands for. -/
def unit (names : CharacterNames) (mode : Mode) (raw : Literal) : Except Fault Code :=
  match (plain names raw).bind mode.unit? with
  | .ok code => .ok code
  | .error cause => .error (.badDelimiter raw cause)

end Delimiter

end RecordScan
