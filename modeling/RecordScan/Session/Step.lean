import RecordScan.Session.Operation

/-!
Contract: the steps of a session.

Owns: `Session.step`, which applies an operation to a handle. A refused step
keeps whatever it moved and adds no handle.
-/

namespace RecordScan

namespace Reply

def ofUnit (mode : Mode) (found : Option Code) : Reply :=
  (found.map (Reply.unit mode)).getD .nothing

def ofTruth (found : Option Bool) : Reply :=
  (found.map Reply.truth).getD .nothing

def ofBytes (found : Option (List UInt8)) : Reply :=
  (found.map Reply.bytes).getD .nothing

def ofText (found : Option Text) : Reply :=
  (found.map Reply.text).getD .nothing

def ofNumber (found : Option Number) : Reply :=
  (found.map Reply.number).getD .nothing

end Reply

/-- What a function finds on a segment. -/
def SegmentTask.visit (task : SegmentTask) (segment : View) : Scan Reply := do
  match task with
  | .bounds =>
      return .list [.count segment.source.start, .count segment.source.stop]
  | .text => return .text (← (← segment.record).restText)
  | .textIfValid => return .ofText (← (← segment.record).restText?)
  | .bytes => return .bytes (← (← segment.record).restBytes)
  | .units => return .list ((← segment.takeUnits).map (Reply.unit segment.mode))
  | .count => return .count (← segment.countAll)
  | .countRun pattern => return .count (← segment.countRun pattern)
  | .countIgnoring ignored pattern =>
      let view ← Scan.ofExcept (segment.ignore ignored)
      return .count (← view.countRun pattern)
  | .number => return .ofNumber (← segment.number)
  | .wholeNumber => return .number (← segment.wholeNumber)
  | .keyValue => return .keyValue (← segment.keyValue)
  | .describe => return .text (Text.ofString (← segment.describe))

/-- The events of a function on a segment that is refused. -/
def SegmentTask.events (task : SegmentTask) (fault : Option Fault) : List Event :=
  match task, fault with
  | .wholeNumber, some fault => Event.ofRefusedNumber fault
  | _, _ => []

/-- The bytes of a literal that is a unit of a mode. -/
def Mode.encodeLiteral (mode : Mode) (given : Literal) : Except Fault (List UInt8) := do
  mode.encodeUnit (← mode.unit? given)

namespace Session

/-! ## Operations that only move the cursor -/

/-- The scan an operation stands for, if it makes no handle and touches no state but the
position. -/
def scanOf (session : Session) (view : View) : Operation → Option (Scan Reply)
  | .tell => some do return .count (← Scan.position)
  | .peek => some do return .ofUnit view.mode (← view.peek)
  | .remaining => some do return .count (← view.remaining)
  | .atEnd => some do return .truth (← view.atEnd)
  | .peekAt distance => some do return .ofUnit view.mode (← view.peekAt distance)
  | .peekLength needed => some do return .ofBytes (← view.peekLength needed)
  | .recordingStart => some do return (view.recordingStart.map Reply.count).getD .nothing
  | .recordStart =>
      match view.layers with
      | .recording start :: _ => some do return .count start
      | _ => none
  | .boundStart => some do return .count view.source.start
  | .boundEnd => some do return .count view.source.stop
  | .isText => some do return .truth (view.mode = .text)
  | .data => some do return .bytes view.source.bytes.toList
  | .describe => some do return .text (Text.ofString (← view.describe))
  | .unitOf given => some do
      return .unit view.mode (← Scan.ofExcept (view.mode.unit? given))
  | .encodeUnit given => some do
      return .bytes (← Scan.ofExcept (view.mode.encodeLiteral given))
  | .advance => some do return .ofUnit view.mode (← view.advance)
  | .restore (.position offset) => some do
      view.restore offset
      return .nothing
  | .restore (.mark index) =>
      session.marks[index]?.map fun offset => do
        view.restore offset
        return .nothing
  | .nextIf pattern => some do return .ofUnit view.mode (← view.nextIf pattern)
  | .advanceIf pattern => some do return .ofTruth (← view.advanceIf pattern)
  | .consumeWhile pattern => some do
      view.consumeWhile pattern
      return .self
  | .consumeClass pattern => some do
      view.consumeClass pattern
      return .self
  | .consumeUnitRun given => some do
      view.consumeUnitRun given
      return .self
  | .consumeUntil pattern => some do
      view.consumeUntil pattern
      return .self
  | .consume => some do
      view.consume
      return .self
  | .consumeCount => some do return .count (← view.countAll)
  | .consumeLength needed => some do
      view.consumeLength needed
      return .self
  | .consumeAtLeast needed => some do
      view.consumeAtLeast needed
      return .self
  | .countRun pattern => some do return .count (← view.countRun pattern)
  | .expect pattern => some do
      view.expect pattern
      return .self
  | .expectEnd => some do
      view.expectEnd
      return .self
  | .recordedBytes => some do return .bytes (← view.recordedBytes)
  | .recordedText => some do return .text (← view.recordedText)
  | .recordedTextIfValid => some do return .ofText (← view.recordedText?)
  | .recordedSpan => some do return .span (← view.recordedSpan)
  | .restBytes => some do return .bytes (← view.restBytes)
  | .restText => some do return .text (← view.restText)
  | .restTextIfValid => some do return .ofText (← view.restText?)
  | .number => some do return .ofNumber (← view.number)
  | .wholeNumber => some do return .number (← view.wholeNumber)
  | .keyValue => some do return .keyValue (← view.keyValue)
  | .keyValues delimiter => some do
      return .list ((← view.keyValues delimiter).map Reply.keyValue)
  | _ => none

/-- What an operation on a cursor logs, by its result. -/
def eventsOf : Operation → Except Fault Reply → List Event
  | .wholeNumber, .error fault => Event.ofRefusedNumber fault
  | .keyValues _, .ok (.list lines) => [.keyValuesParsed lines.length]
  | _, _ => []

/-! ## Steps by the kind of handle -/

def answerOf : Except Fault Reply → Answer
  | .ok reply => .reply reply
  | .error fault => .refused fault

/-- An outcome that shows the position of a stack and no more. -/
def plainOutcome (session : Session) (stack : Stack) (answer : Answer) : Session × Outcome :=
  (session, ⟨answer, session.position stack, none, none, []⟩)

/-- The outcome of an operation that adds a handle. -/
def added (stack : Stack) (result : Session × Nat) : Session × Outcome :=
  result.1.plainOutcome stack (.reply (.handle result.2))

/-- The outcome of an operation that is refused before it changes anything. -/
def refused (session : Session) (stack : Stack) (fault : Fault) : Session × Outcome :=
  session.plainOutcome stack (.refused fault)

/-- Makes a new handle of a checked value. -/
def addChecked {α : Type} (session : Session) (stack : Stack) (checked : Except Fault α)
    (add : α → Session × Nat) : Session × Outcome :=
  match checked with
  | .ok value => added stack (add value)
  | .error fault => session.refused stack fault

/-- Runs a scan on the cursor beneath a stack. -/
def runScan (session : Session) (stack : Stack) (scan : Scan Reply) :
    Session × Except Fault Reply :=
  let (result, moved) := scan (session.position stack)
  (session.moveTo stack moved, result)

/-- A step on a cursor. -/
def stepCursor (session : Session) (stack : Stack) (operation : Operation) :
    Session × Outcome :=
  let view := session.view stack
  match session.scanOf view operation with
  | some scan =>
      let (session, result) := session.runScan stack scan
      (session,
        ⟨answerOf result, session.position stack, none, none, eventsOf operation result⟩)
  | none =>
      match operation with
      | .checkpoint =>
          let position := session.position stack
          let marked := { session with marks := session.marks.push position }
          marked.plainOutcome stack (.reply (.mark session.marks.size position))
      | .record => added stack (session.addRecorder stack)
      | .rebase =>
          match stack.layers with
          | .recorder index :: _ => (session.rebase stack index).plainOutcome stack (.reply .self)
          | _ => session.plainOutcome stack .unsupported
      | .splitOn delimiter =>
          session.addChecked stack (delimiter.test? view.mode) fun _ =>
            session.addHandle (.splitter stack delimiter false)
      | .ignore given =>
          session.addChecked stack (view.mode.unit? given) fun unit =>
            session.addHandle (.cursor ⟨stack.cursor, .ignoring unit :: stack.layers⟩)
      | .stop =>
          added stack (session.addHandle (.cursor ⟨stack.cursor, .stopped :: stack.layers⟩))
      | .bounded first last =>
          session.addChecked stack (view.bounded first last) session.addSegment
      | .whileClass pattern => added stack (session.addHandle (.run stack pattern))
      | .whileUnit pattern =>
          session.addChecked stack (pattern.test? view.mode) fun _ =>
            session.addHandle (.run stack pattern)
      | _ => session.plainOutcome stack .unsupported

/-- A step on a run. -/
def stepRun (session : Session) (stack : Stack) (pattern : Pattern) (operation : Operation) :
    Session × Outcome :=
  let view := session.view stack
  let scan? : Option (Scan Reply) :=
    match operation with
    | .consume => some do return .count (← view.countRun pattern)
    | .consumeAtLeast needed => some do return .count (← view.countAtLeast pattern needed)
    | _ => none
  match scan? with
  | none => session.plainOutcome stack .unsupported
  | some scan =>
      let (session, result) := session.runScan stack scan
      session.plainOutcome stack (answerOf result)

/-- Notes how far a splitter has come. -/
def settle (session : Session) (index : Nat) (parent : Stack) (progress : Progress) : Session :=
  (session.moveTo parent progress.position).setExhausted index progress.exhausted

/-- The outcome of a sweep: its results if it reached the end, and its refusal otherwise. -/
def sweepOutcome (session : Session) (index : Nat) (parent : Stack) (task : SegmentTask)
    (sweep : View.Sweep Reply) (finished : Reply) (seen : Option (List Reply)) :
    Session × Outcome :=
  let session := session.settle index parent sweep.progress
  let answer :=
    match sweep.fault with
    | none => Answer.reply finished
    | some fault => .refused fault
  (session,
    ⟨answer, session.position parent, some sweep.progress.exhausted, seen,
      task.events sweep.fault⟩)

/-- A step on the splitter at a handle. -/
def stepSplitter (session : Session) (index : Nat) (parent : Stack) (delimiter : Pattern)
    (exhausted : Bool) (operation : Operation) : Session × Outcome :=
  let view := session.view parent
  let progress : Progress := ⟨session.position parent, exhausted⟩
  match operation with
  | .next =>
      let (result, progress) := view.nextSegment delimiter progress
      let session := session.settle index parent progress
      let (session, answer) :=
        match result with
        | .error fault => (session, Answer.refused fault)
        | .ok segment =>
            let (session, handle) := session.addSegment segment
            (session, .reply (.handle handle))
      (session, ⟨answer, session.position parent, some progress.exhausted, none, []⟩)
  | .mapSegments task =>
      let sweep := view.sweep delimiter task.visit progress
      session.sweepOutcome index parent task sweep (.list sweep.results) none
  | .forEachSegment task =>
      let sweep := view.sweep delimiter task.visit progress
      session.sweepOutcome index parent task sweep .self (some sweep.results)
  | _ =>
      (session, ⟨.unsupported, session.position parent, some exhausted, none, []⟩)

/-- Applies an operation to a handle, if there is such a handle. -/
def step (session : Session) (index : Nat) (operation : Operation) :
    Option (Session × Outcome) :=
  session.handles[index]?.map fun
    | .cursor stack => session.stepCursor stack operation
    | .splitter parent delimiter exhausted =>
        session.stepSplitter index parent delimiter exhausted operation
    | .run stack pattern => session.stepRun stack pattern operation

end Session

end RecordScan
