import RecordScan.Grammar.Number
import RecordScan.Scan.Split
import RecordScan.Text.Blank

/-!
Contract: key/value lines.

Owns: the line grammar `key: value` and the reading of all lines of a view.
-/

namespace RecordScan.View

/-- Reads the rest of a line. The key is everything before the first colon, the value
everything after it without leading blanks; a line without a colon is all value. The span is
that of the whole line. -/
def keyValue (line : View) : Scan KeyValue := do
  let span ← Scan.ofExcept (Span.checked line.source.start line.source.stop)
  let keyRecording ← line.record
  keyRecording.consumeUntil (character ':')
  let key ← keyRecording.recordedText
  match ← line.advance with
  | none => return ⟨[], Text.stripLeft key, span⟩
  | some _ =>
      let valueRecording ← line.record
      let value ← valueRecording.restText
      return ⟨key, Text.stripLeft value, span⟩

/-- Reads the lines of a view, separated by a delimiter. The first line that is refused ends
the reading. -/
def keyValues (view : View) (delimiter : Pattern) : Scan (List KeyValue) :=
  fun position =>
    match delimiter.test? view.mode with
    | .error fault => (.error fault, position)
    | .ok _ =>
        let sweep := view.sweep delimiter keyValue ⟨position, false⟩
        match sweep.fault with
        | none => (.ok sweep.results, sweep.progress.position)
        | some fault => (.error fault, sweep.progress.position)

/-- The delimiter of lines unless another one is given. -/
def lineBreak : Pattern :=
  character '\n'

end RecordScan.View
