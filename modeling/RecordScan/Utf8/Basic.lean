import RecordScan.Text.Code

/-!
Contract: the byte classes of UTF-8 and the ways a byte string fails to be UTF-8.

Owns: the width that a lead byte announces, continuation bytes, scalar
boundaries, and the defects of encoded texts with their wording.
-/

namespace RecordScan.Utf8

/-- Why a byte string or a text has no reading or no encoding at some place. -/
inductive Reason where
  /-- The byte starts no sequence. -/
  | startByte
  /-- A byte inside a sequence is outside the range of its place. -/
  | continuationByte
  /-- The input ends inside a sequence that is well formed so far. -/
  | endOfData
  /-- A lone surrogate has no encoding. -/
  | surrogate
  /-- The byte that should lead a sequence cannot. -/
  | leadByte (byte : UInt8)
  /-- The sequence would run past the bound. -/
  | truncated
  /-- The bytes of the announced width are no sequence. -/
  | malformed
  /-- The offset lies between the bytes of one sequence. -/
  | insideSequence
deriving DecidableEq, Repr

/-- A defect and the byte offset where its sequence starts. -/
structure Defect where
  offset : Nat
  reason : Reason
deriving DecidableEq, Repr

/-- The length of the sequence a lead byte announces; 0 for a byte that leads none. -/
def width (lead : Nat) : Nat :=
  if lead < 0x80 then 1
  else if 0xC2 ≤ lead ∧ lead ≤ 0xDF then 2
  else if 0xE0 ≤ lead ∧ lead ≤ 0xEF then 3
  else if 0xF0 ≤ lead ∧ lead ≤ 0xF4 then 4
  else 0

/-- Bytes that stand only inside a sequence. -/
def isContinuation (byte : Nat) : Bool :=
  0x80 ≤ byte && byte ≤ 0xBF

/-- Whether an offset falls before the first byte of a sequence or past the end. -/
def isBoundary (bytes : Array UInt8) (offset : Nat) : Bool :=
  match bytes[offset]? with
  | none => true
  | some byte => !isContinuation byte.toNat

end RecordScan.Utf8
