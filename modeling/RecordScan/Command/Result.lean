import RecordScan.Command.Help
import RecordScan.Command.Json
import RecordScan.Grammar.KeyValue
import RecordScan.Log

/-!
Contract: what each command makes of the segments of its input.

Owns: the documents that segments, key/value lines and numbers are printed as,
the summaries, and what the commands do with a segment they cannot read. Split
shows it in hexadecimal; the key/value command fails; the numbers command logs
it and goes on.
-/

namespace RecordScan

/-! ## Documents -/

def NumberValue.document : NumberValue → JsonValue
  | .whole value => .integer value
  | .real value => .real value

def Number.document (number : Number) : JsonValue :=
  .object [
    ("kind", .string (Text.ofString number.kind.name)),
    ("value", number.value.document)]

def Span.document (span : Span) : JsonValue :=
  .object [("start", .integer span.start), ("end", .integer span.stop)]

def KeyValue.document (record : KeyValue) : JsonValue :=
  .object [
    ("key", .string record.key),
    ("value", .string record.value),
    ("span", record.span.document)]

/-- A document as a command prints it. -/
def JsonValue.printed (document : JsonValue) : String :=
  document.print ++ "\n"

namespace Command

/-! ## Split -/

/-- The text of a segment, or its bytes in hexadecimal if they are no UTF-8. -/
def segmentDocument (segment : View) : Scan JsonValue := do
  let recording ← segment.record
  match ← recording.restText? with
  | some text => return .string text
  | none =>
      return .object [("hex", .string (Text.ofString (Text.hex (← recording.recordedBytes))))]

/-- Runs a scan on a segment from its start. -/
def onSegment {α : Type} (scan : View → Scan α) (segment : View) : Except Fault α :=
  (scan segment segment.source.start).1

def printSegments (summary : Bool) (segments : List View) : Except Fault String :=
  if summary then .ok s!"segments={segments.length}\n"
  else (segments.mapM (onSegment segmentDocument)).map fun items => (JsonValue.array items).printed

/-! ## Key/value lines -/

/-- The record of a segment; none if the segment is empty. -/
def recordOf (segment : View) : Scan (Option KeyValue) := do
  if ← segment.atEnd then return none else return some (← segment.keyValue)

def printRecords (segments : List View) : Except Fault String :=
  (segments.mapM (onSegment recordOf)).map fun records =>
    (JsonValue.array ((records.filterMap id).map KeyValue.document)).printed

/-! ## Numbers -/

/-- What was logged while numbers were read, and the numbers, with nothing in the place of a
segment that holds none; or the refusal that ended the reading. -/
structure Readings where
  events : List Event
  numbers : Except Fault (List (Option Number))

/-- Puts a reading before others. -/
def Readings.cons (events : List Event) (number : Option Number) (rest : Readings) : Readings :=
  ⟨events ++ rest.events, rest.numbers.map (number :: ·)⟩

/-- The number of a segment; none if the segment is empty. -/
def numberOf (segment : View) : Scan (Option Number) := do
  if ← segment.atEnd then return none else return some (← segment.wholeNumber)

/-- Reads the segments from number `index` on. Empty segments leave no reading. -/
def readings (index : Nat) : List View → Readings
  | [] => ⟨[], .ok []⟩
  | segment :: rest =>
      match onSegment numberOf segment with
      | .ok none => readings (index + 1) rest
      | .ok (some number) => (readings (index + 1) rest).cons [] (some number)
      | .error fault =>
          let rejected := Event.ofRefusedNumber fault
          if fault.isParseFailure then
            (readings (index + 1) rest).cons
              (rejected ++ [.numberParseFailed index fault.message]) none
          else ⟨rejected, .error fault⟩

def numberSummary (numbers : List (Option Number)) : String :=
  let parsed := numbers.countP Option.isSome
  let failed := numbers.countP Option.isNone
  s!"numbers={parsed}, failed={failed}\n"

def numberDocument (numbers : List (Option Number)) : String :=
  (JsonValue.array (numbers.map fun number => (number.map Number.document).getD .null)).printed

/-! ## All commands -/

/-- What a command logs and prints, given the segments of its input. -/
def print (command : Command) (summary : Bool) (segments : List View) :
    List Event × Except Fault String :=
  match command with
  | .split => ([], printSegments summary segments)
  | .keyValues => ([], printRecords segments)
  | .numbers =>
      let found := readings 0 segments
      (found.events, found.numbers.map (if summary then numberSummary else numberDocument))

end Command

end RecordScan
