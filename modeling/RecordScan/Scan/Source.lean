import RecordScan.Scan.Basic

/-!
Contract: bounded buffers, the ground every cursor stands on.

Owns: reading the unit at a position, moving to a given position, narrowing the
bounds, and searching for the bytes of a unit.
-/

namespace RecordScan

/-- An immutable buffer with bounds `[start, stop)`, read by bytes or by UTF-8 scalars. -/
structure Source where
  mode : Mode
  bytes : Array UInt8
  start : Nat
  stop : Nat
deriving DecidableEq, Repr

namespace Source

/-- A whole buffer, read by bytes. -/
def ofBytes (bytes : List UInt8) : Source :=
  ⟨.bytes, bytes.toArray, 0, bytes.length⟩

/-- A whole buffer, read as text. It must be UTF-8. -/
def ofUtf8 (bytes : List UInt8) : Except Fault Source :=
  match Utf8.decode bytes with
  | .ok _ => .ok ⟨.text, bytes.toArray, 0, bytes.length⟩
  | .error defect => .error defect.fault

/-- A text, read as text. It must have an encoding. -/
def ofText (text : Text) : Except Fault Source :=
  match Utf8.encode text with
  | .ok bytes => .ok ⟨.text, bytes.toArray, 0, bytes.length⟩
  | .error defect => .error defect.fault

/-- What a source is made of: a text, or bytes from a file or from memory. -/
inductive Input where
  | text (value : Text)
  | bytes (value : List UInt8)
deriving DecidableEq, Repr

/-- A source over all of an input. Bytes are read either way, a text only as text. -/
def ofInput : Mode → Input → Except Fault Source
  | .bytes, .bytes value => .ok (ofBytes value)
  | .bytes, .text _ => .error .bytesWanted
  | .text, .bytes value => ofUtf8 value
  | .text, .text value => ofText value

/-- More rounds than a loop from this position can have. -/
def rounds (source : Source) : Scan Nat := do
  return source.stop - (← Scan.position) + 1

/-- The unit at a position, and its width in bytes. -/
def unitAt (source : Source) (position : Nat) : Except Fault (Code × Nat) :=
  match source.mode with
  | .bytes =>
      match source.bytes[position]? with
      | none => .error .indexRange
      | some byte => .ok (byte.toNat, 1)
  | .text =>
      match Utf8.decodeScalar source.bytes position source.stop with
      | none => .error .indexRange
      | some (.error defect) => .error defect.fault
      | some (.ok scalar) => .ok scalar

/-- The next unit. -/
def peek (source : Source) : Scan (Option Code) := do
  let position ← Scan.position
  if source.stop ≤ position then return none
  else
    let (unit, _) ← Scan.ofExcept (source.unitAt position)
    return some unit

/-- The next unit, and past it. -/
def advance (source : Source) : Scan (Option Code) := do
  let position ← Scan.position
  if source.stop ≤ position then return none
  else
    let (unit, width) ← Scan.ofExcept (source.unitAt position)
    Scan.moveTo (position + width)
    return some unit

/-- A text may be entered and left only between scalars. -/
def checkOffset (source : Source) (offset : Nat) : Except Fault Unit :=
  match source.mode with
  | .bytes => .ok ()
  | .text =>
      if Utf8.isBoundary source.bytes offset then .ok ()
      else .error (.utf8 offset .insideSequence)

/-- Moves to a position inside the bounds. -/
def restore (source : Source) (target : Int) : Scan Unit := do
  if (source.start : Int) ≤ target ∧ target ≤ source.stop then
    Scan.ofExcept (source.checkOffset target.toNat)
    Scan.moveTo target.toNat
  else Scan.refuse (.positionOutside target source.start source.stop)

/-- The same buffer with narrower bounds. -/
def bounded (source : Source) (first last : Int) : Except Fault Source := do
  if (source.start : Int) ≤ first ∧ first ≤ last ∧ last ≤ source.stop then
    source.checkOffset first.toNat
    source.checkOffset last.toNat
    return { source with start := first.toNat, stop := last.toNat }
  else throw (.boundsOutside first last source.start source.stop)

/-! ## Searching -/

/-- Whether the bytes of `needle` stand at an offset. -/
def matchesAt (bytes : Array UInt8) : (needle : List UInt8) → (offset : Nat) → Bool
  | [], _ => true
  | byte :: needle, offset => bytes[offset]? == some byte && matchesAt bytes needle (offset + 1)

/-- The first offset from `offset` on at which `needle` stands wholly before `stop`. -/
def findFrom (bytes : Array UInt8) (needle : List UInt8) (stop : Nat) :
    (rounds : Nat) → (offset : Nat) → Option Nat
  | 0, _ => none
  | rounds + 1, offset =>
      if stop < offset + needle.length then none
      else if matchesAt bytes needle offset then some offset
      else findFrom bytes needle stop rounds (offset + 1)

/-- Moves to the next occurrence of `needle`, or to the end. -/
def seek (source : Source) (needle : List UInt8) : Scan Unit := do
  let found := findFrom source.bytes needle source.stop (← source.rounds) (← Scan.position)
  Scan.moveTo (found.getD source.stop)

end Source

end RecordScan
