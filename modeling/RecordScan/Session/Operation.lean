import RecordScan.Session.Basic

/-!
Contract: what can be asked of a session, and what it answers.

Owns: the operations on handles, the functions a splitter can apply to its
segments, the replies, and the outcome of a step.
-/

namespace RecordScan

/-- A function on the segments of a splitter. -/
inductive SegmentTask where
  /-- The bounds of the segment. -/
  | bounds
  | text
  | textIfValid
  | bytes
  /-- The units, one by one. -/
  | units
  | count
  | countRun (pattern : Pattern)
  /-- The length of a leading run, with one unit ignored. -/
  | countIgnoring (ignored : Literal) (pattern : Pattern)
  | number
  | wholeNumber
  | keyValue
  | describe

/-- Where a cursor is asked to return to. -/
inductive Target where
  | mark (index : Nat)
  | position (offset : Int)
deriving DecidableEq, Repr

inductive Operation where
  -- looking
  | tell
  | peek
  | remaining
  | atEnd
  | peekAt (distance : Int)
  | peekLength (needed : Int)
  | recordingStart
  | recordStart
  | boundStart
  | boundEnd
  | isText
  | data
  | describe
  -- units
  | unitOf (literal : Literal)
  | encodeUnit (literal : Literal)
  -- moving
  | advance
  | checkpoint
  | restore (target : Target)
  | nextIf (pattern : Pattern)
  | advanceIf (pattern : Pattern)
  | consumeWhile (pattern : Pattern)
  | consumeClass (pattern : Pattern)
  | consumeUnitRun (literal : Literal)
  | consumeUntil (pattern : Pattern)
  | consume
  | consumeCount
  | consumeLength (needed : Int)
  | consumeAtLeast (needed : Int)
  | countRun (pattern : Pattern)
  | expect (pattern : Pattern)
  | expectEnd
  -- recordings
  | record
  | rebase
  | recordedBytes
  | recordedText
  | recordedTextIfValid
  | recordedSpan
  | restBytes
  | restText
  | restTextIfValid
  -- derived handles
  | splitOn (delimiter : Pattern)
  | ignore (literal : Literal)
  | stop
  | bounded (first last : Int)
  | whileClass (pattern : Pattern)
  | whileUnit (pattern : Pattern)
  -- grammars
  | number
  | wholeNumber
  | keyValue
  | keyValues (delimiter : Pattern)
  -- splitters
  | next
  | mapSegments (task : SegmentTask)
  | forEachSegment (task : SegmentTask)

/-- What an operation answers. -/
inductive Reply where
  | nothing
  /-- The handle itself. -/
  | self
  /-- A new handle. -/
  | handle (index : Nat)
  | mark (index position : Nat)
  | truth (value : Bool)
  | count (value : Nat)
  | unit (mode : Mode) (code : Code)
  | bytes (value : List UInt8)
  | text (value : Text)
  | span (value : Span)
  | number (value : Number)
  | keyValue (value : KeyValue)
  | list (values : List Reply)

/-- The result of a step. -/
inductive Answer where
  | reply (reply : Reply)
  | refused (fault : Fault)
  /-- The handle has no such operation. -/
  | unsupported

/-- All that a step shows. -/
structure Outcome where
  answer : Answer
  /-- The position of the handle's cursor afterwards. -/
  position : Nat
  /-- Of a splitter, whether it is exhausted afterwards. -/
  exhausted : Option Bool
  /-- The results of a function applied for its effect, also before a refusal. -/
  seen : Option (List Reply)
  events : List Event

end RecordScan
