import RecordScan.Decimal.Numeral
import RecordScan.Scan.Recording

/-!
Contract: numbers at a cursor.

Owns: the grammar `-?digits(.digits*)?` over the units of a view, and the number
that must fill its cursor.

The value is read from the recorded text, which keeps the units that an ignoring
layer skips.
-/

namespace RecordScan.View

/-- A character as a pattern. -/
def character (char : Char) : Pattern :=
  .literal (.text [char.toNat])

def digits : Pattern :=
  .satisfying Code.isAsciiDigit

/-- The value of the recorded text as an integer. -/
def recordedInteger (view : View) : Scan Int := do
  let text ← view.recordedText
  match Numeral.readInteger text with
  | .ok value => return value
  | .error .malformed => Scan.refuse (.integerSyntax text)
  | .error (.tooLong count) => Scan.refuse (.integerDigits count)

/-- The value of the recorded text as a floating-point number. -/
def recordedReal (view : View) : Scan Binary64 := do
  let text ← view.recordedText
  match Numeral.readReal text with
  | some value => return value
  | none => Scan.refuse (.realSyntax text)

/-- Reads the longest number at the cursor. Without a digit before the point there is none,
and the cursor returns to where it was. -/
def number (view : View) : Scan (Option Number) := do
  let mark ← Scan.position
  let recording := view.recordFrom mark
  let negative := (← recording.nextIf (character '-')).isSome
  if (← recording.countRun digits) = 0 then
    view.restore mark
    return none
  else
    match ← recording.nextIf (character '.') with
    | none =>
        let kind := if negative then NumberKind.integer else .uint
        let value ← recording.recordedInteger
        return some (← Scan.ofExcept (Number.checked kind (.whole value)))
    | some _ =>
        recording.consumeWhile digits
        let value ← recording.recordedReal
        return some (← Scan.ofExcept (Number.checked .float (.real value)))

/-- Reads a number that fills the cursor. -/
def wholeNumber (view : View) : Scan Number := do
  let start ← Scan.position
  match ← view.number with
  | none => Scan.refuse (.noNumber start)
  | some found =>
      view.expectEnd
      return found

end RecordScan.View

namespace RecordScan.Number

/-- Reads a text that is a number. -/
def ofText (text : Text) : Except Fault Number :=
  match Source.ofText text with
  | .error fault => .error fault
  | .ok source => (View.wholeNumber ⟨source, []⟩ 0).1

end RecordScan.Number
