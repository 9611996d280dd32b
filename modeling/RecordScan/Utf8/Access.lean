import RecordScan.Fault
import RecordScan.Utf8.Decode
import RecordScan.Utf8.Encode

/-!
Contract: UTF-8 at the door of the library, where numbers and offsets are any integers.

Owns: the reading of offsets below zero, which count from the end of the buffer,
and the refusals of the byte classes and decoders as faults.
-/

namespace RecordScan.Utf8

/-- The width a number announces as a lead byte; every number below 0x80 stands alone. -/
def widthOf (lead : Int) : Nat :=
  if lead < 0 then 1 else width lead.toNat

def isContinuationByte (byte : Int) : Bool :=
  0 ≤ byte && isContinuation byte.toNat

/-- One more than the greatest index. -/
def indexBound : Int := 0x8000000000000000

/-- The place of an offset in a buffer of some size. -/
def locate (size : Nat) (offset : Int) : Except Fault Nat :=
  let place := if offset < 0 then offset + size else offset
  if offset < -indexBound ∨ indexBound ≤ offset then .error .indexOverflow
  else if 0 ≤ place ∧ place < size then .ok place.toNat
  else .error .indexRange

/-- The bound of a slice, moved into the buffer. -/
def clamp (size : Nat) (bound : Int) : Nat :=
  min (if bound < 0 then bound + size else bound).toNat size

/-- Whether an offset does not fall inside a sequence. -/
def isBoundaryAt (bytes : Array UInt8) (offset : Int) : Except Fault Bool :=
  if bytes.size ≤ offset then .ok true
  else (locate bytes.size offset).map (isBoundary bytes)

/-- The scalar at an offset, and its width. An offset below zero may leave its sequence
outside the slice between the bounds. -/
def scalarAt (bytes : Array UInt8) (offset stop : Int) : Except Fault (Text × Nat) :=
  match (locate bytes.size offset).map (bytes[·]?) with
  | .error fault => .error fault
  | .ok none => .error .indexRange
  | .ok (some lead) =>
      match width lead.toNat with
      | 0 => .error (.utf8 offset (.leadByte lead))
      | 1 => .ok ([lead.toNat], 1)
      | size =>
          if stop < offset + size then .error (.utf8 offset .truncated)
          else
            match decode (slice bytes (clamp bytes.size offset)
                (clamp bytes.size (offset + size))) with
            | .ok text => .ok (text, size)
            | .error defect => .error (.utf8 (offset + defect.offset) .malformed)

/-- Refuses a byte string that is not UTF-8. -/
def validate (bytes : List UInt8) : Except Fault Unit :=
  match decode bytes with
  | .ok _ => .ok ()
  | .error defect => .error defect.fault

/-- The bytes of a text, which must have an encoding. -/
def encodeText (text : Text) : Except Fault (List UInt8) :=
  match encode text with
  | .ok bytes => .ok bytes
  | .error defect => .error defect.fault

end RecordScan.Utf8
