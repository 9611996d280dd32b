import RecordScan.Model.Check
import RecordScan.Scan.Consume

/-!
Contract: what a recording holds.

Owns: the recorded range of a view and its bytes, text and span.
-/

namespace RecordScan

namespace View

/-- Where the outermost recording of a view starts. -/
def recordingStart (view : View) : Option Nat :=
  view.layers.findSome? fun
    | .recording start => some start
    | _ => none

/-- From the start of the recording to the position. -/
def recordedRange (view : View) : Scan (Nat × Nat) := do
  match view.recordingStart with
  | none => Scan.refuse .notRecording
  | some start =>
      let position ← Scan.position
      if position < start then Scan.refuse (.behindRecording position start)
      else return (start, position)

/-- The recorded bytes. -/
def recordedBytes (view : View) : Scan (List UInt8) := do
  let (start, stop) ← view.recordedRange
  return Utf8.slice view.source.bytes start stop

/-- The recorded text. A defect is placed in the whole buffer. -/
def recordedText (view : View) : Scan Text := do
  let (start, stop) ← view.recordedRange
  match Utf8.decodeFrom start (Utf8.slice view.source.bytes start stop) with
  | .ok text => return text
  | .error defect => Scan.refuse defect.fault

/-- The recorded text, or nothing if it is not UTF-8. -/
def recordedText? (view : View) : Scan (Option Text) :=
  fun position =>
    match view.recordedText position with
    | (.ok text, moved) => (.ok (some text), moved)
    | (.error (.utf8 _ _), moved) => (.ok none, moved)
    | (.error fault, moved) => (.error fault, moved)

def recordedSpan (view : View) : Scan Span := do
  let (start, stop) ← view.recordedRange
  Scan.ofExcept (Span.checked start stop)

/-! ## Recording the rest -/

def restBytes (view : View) : Scan (List UInt8) := do
  view.consume
  view.recordedBytes

def restText (view : View) : Scan Text := do
  view.consume
  view.recordedText

def restText? (view : View) : Scan (Option Text) := do
  view.consume
  view.recordedText?

/-! ## Description -/

/-- What a source is called when it is described. -/
def sourceName : Mode → String
  | .bytes => "BytesParser"
  | .text => "StrParser"

/-- Describes layers over a source at a position. -/
def describeThrough (source : Source) (position : Nat) : List Layer → String
  | [] =>
      sourceName source.mode ++
        s!"(pos={position}, start={source.start}, end={source.stop})"
  | .recording start :: inner =>
      s!"Recorder(start={start}, " ++ describeThrough source position inner ++ ")"
  | .ignoring _ :: inner => "IgnoreByte(" ++ describeThrough source position inner ++ ")"
  | .stopped :: inner => "Stop(" ++ describeThrough source position inner ++ ")"

def describe (view : View) : Scan String := do
  return describeThrough view.source (← Scan.position) view.layers

end View

end RecordScan
