import RecordScan.Utf8.Basic

/-!
Contract: decoding UTF-8, whole byte strings and single scalars.

Owns: the strict reader of a whole byte string (`decode`), which names the start
of the first ill-formed sequence, and the reader of one scalar inside a bounded
buffer (`decodeScalar`), which looks at the lead byte first.
-/

namespace RecordScan.Utf8

/-! ## Whole byte strings -/

/-- What a lead byte contributes, and the range of each byte that must follow.
The ranges of the second byte rule out overlong forms, surrogates and values
above U+10FFFF. -/
def lead? (byte : Nat) : Option (Code × List (Nat × Nat)) :=
  if byte < 0x80 then some (byte, [])
  else if byte < 0xC2 then none
  else if byte < 0xE0 then some (byte - 0xC0, [(0x80, 0xBF)])
  else if byte = 0xE0 then some (0, [(0xA0, 0xBF), (0x80, 0xBF)])
  else if byte = 0xED then some (0xD, [(0x80, 0x9F), (0x80, 0xBF)])
  else if byte < 0xF0 then some (byte - 0xE0, [(0x80, 0xBF), (0x80, 0xBF)])
  else if byte = 0xF0 then some (0, [(0x90, 0xBF), (0x80, 0xBF), (0x80, 0xBF)])
  else if byte < 0xF4 then some (byte - 0xF0, [(0x80, 0xBF), (0x80, 0xBF), (0x80, 0xBF)])
  else if byte = 0xF4 then some (4, [(0x80, 0x8F), (0x80, 0xBF), (0x80, 0xBF)])
  else none

/-- Reads the bytes that must follow a lead byte; answers the code point and the rest. -/
def follow : (ranges : List (Nat × Nat)) → Code → List UInt8 → Except Reason (Code × List UInt8)
  | [], code, bytes => .ok (code, bytes)
  | _ :: _, _, [] => .error .endOfData
  | (low, high) :: ranges, code, byte :: bytes =>
      if low ≤ byte.toNat ∧ byte.toNat ≤ high then
        follow ranges (code * 0x40 + (byte.toNat - 0x80)) bytes
      else .error .continuationByte

/-- Reads one scalar that starts with `byte`. -/
def readScalar (byte : UInt8) (bytes : List UInt8) : Except Reason (Code × List UInt8) :=
  match lead? byte.toNat with
  | none => .error .startByte
  | some (code, ranges) => follow ranges code bytes

theorem length_of_follow {ranges : List (Nat × Nat)} {code found : Code}
    {bytes rest : List UInt8} (read : follow ranges code bytes = .ok (found, rest)) :
    bytes.length = rest.length + ranges.length := by
  induction ranges generalizing code bytes with
  | nil =>
      simp only [follow, Except.ok.injEq, Prod.mk.injEq] at read
      simp [read.2]
  | cons range ranges inductionHypothesis =>
      cases bytes with
      | nil => simp [follow] at read
      | cons byte bytes =>
          simp only [follow] at read
          split at read
          · have := inductionHypothesis read
            simp only [List.length_cons]
            omega
          · cases read

theorem length_le_of_readScalar {byte : UInt8} {bytes rest : List UInt8} {found : Code}
    (read : readScalar byte bytes = .ok (found, rest)) : rest.length ≤ bytes.length := by
  unfold readScalar at read
  split at read
  · cases read
  · have := length_of_follow read
    omega

/-- Reads a byte string that starts at `offset` of some buffer. -/
def decodeFrom (offset : Nat) (bytes : List UInt8) : Except Defect Text :=
  match bytes with
  | [] => .ok []
  | byte :: bytes =>
      match _read : readScalar byte bytes with
      | .error reason => .error ⟨offset, reason⟩
      | .ok (code, rest) =>
          match decodeFrom (offset + width byte.toNat) rest with
          | .error defect => .error defect
          | .ok text => .ok (code :: text)
termination_by bytes.length
decreasing_by
  have := length_le_of_readScalar _read
  simp only [List.length_cons]
  omega

/-- The text of a byte string. -/
def decode (bytes : List UInt8) : Except Defect Text :=
  decodeFrom 0 bytes

/-- The leading bytes that keep to the ranges of their places. -/
def inRanges : List (Nat × Nat) → List UInt8 → List UInt8
  | (low, high) :: ranges, byte :: bytes =>
      if low ≤ byte.toNat ∧ byte.toNat ≤ high then byte :: inRanges ranges bytes else []
  | _, _ => []

/-- The ill-formed sequence at the front of a byte string: its first byte and the bytes that
go on from there as they should. -/
def illFormed : List UInt8 → List UInt8
  | [] => []
  | byte :: bytes =>
      match lead? byte.toNat with
      | none => [byte]
      | some (_, ranges) => byte :: inRanges ranges bytes

/-- Whether a byte string is UTF-8. -/
def isValid (bytes : List UInt8) : Bool :=
  (decode bytes).isOk

/-! ## One scalar of a buffer -/

/-- The bytes of a buffer from `start` up to `stop`. -/
def slice (bytes : Array UInt8) (start stop : Nat) : List UInt8 :=
  (bytes.extract start stop).toList

/-- The scalar that starts at `offset`, and its width, without reading past `stop`. An
offset past the buffer has none. -/
def decodeScalar (bytes : Array UInt8) (offset stop : Nat) :
    Option (Except Defect (Code × Nat)) :=
  bytes[offset]?.map fun lead =>
    match width lead.toNat with
    | 0 => .error ⟨offset, .leadByte lead⟩
    | 1 => .ok (lead.toNat, 1)
    | size =>
        if stop < offset + size then .error ⟨offset, .truncated⟩
        else
          match decode (slice bytes offset (offset + size)) with
          | .ok [code] => .ok (code, size)
          | .ok _ => .error ⟨offset, .malformed⟩
          | .error defect => .error ⟨offset + defect.offset, .malformed⟩

end RecordScan.Utf8
