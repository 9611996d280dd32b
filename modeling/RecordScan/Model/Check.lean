import RecordScan.Decimal.Numeral
import RecordScan.Fault
import RecordScan.Utf8.Decode

/-!
Contract: models from values given outside.

Owns: how a literal is read as a field (`lenient` reading: a number may be
written in a text, and an integer may be a whole floating-point number), the
order of complaints, and the rules that join fields.
-/

namespace RecordScan

/-! ## Reading fields -/

namespace Field

/-- Digits with single underscores between them, the underscores dropped. -/
def dropUnderscores? (text : Text) : Option Text :=
  let mark : Code := 0x5F
  let doubled := (text.zip (text.drop 1)).any fun pair => pair.1 = mark && pair.2 = mark
  if text.head? = some mark || text.getLast? = some mark || !text.contains mark || doubled then
    none
  else some (text.filter (· != mark))

/-- Drops leading zeros, and underscores among them, up to the last zero that is needed. -/
def dropLeadingZeros (afterMark : Bool) : Text → Option Text
  | [] => if afterMark then none else some [0x30]
  | code :: rest =>
      if code = 0x30 then dropLeadingZeros false rest
      else if code = 0x5F then if afterMark then none else dropLeadingZeros true rest
      else if code = 0x2E then if afterMark then none else some (0x30 :: code :: rest)
      else if Numeral.isDigit code || code = 0x2D then some (code :: rest)
      else none

/-- The text without leading zeros; it must start with a digit or a minus. -/
def withoutZeros : Text → Option Text
  | [] => none
  | code :: rest =>
      if code = 0x30 then dropLeadingZeros false rest
      else if Numeral.isDigit code || code = 0x2D then some (code :: rest)
      else none

/-- Drops a point that only zeros follow. -/
def dropZeroFraction (text : Text) : Text :=
  let whole := text.takeWhile (· != 0x2E)
  let fraction := (text.dropWhile (· != 0x2E)).drop 1
  if fraction.all (· = 0x30) then whole else text

/-- The characters of an integer, its sign included, that are read at most. -/
def integerLimit : Nat := 4300

/-- An integer without any decoration: no leading zero, no sign but a minus. Too many digits
are refused for their number alone, whatever follows them. -/
def bareInteger (text : Text) : Except Complaint Int :=
  let (sign, digits) :=
    match text with
    | 0x2D :: rest => (1, rest)
    | _ => (0, text)
  let run := digits.takeWhile Numeral.isDigit
  if run.isEmpty || (run.head? = some 0x30 && run.length != 1) then .error .integerSyntax
  else if integerLimit < sign + run.length then .error .integerSize
  else if run.length != digits.length then .error .integerSyntax
  else
    let magnitude : Int := Numeral.digitsValue (digits.map (· - 0x30))
    .ok (if sign = 1 then -magnitude else magnitude)

/-- The text without white space around it and without a plus before it. -/
def withoutPlus? (text : Text) : Option Text :=
  match Text.stripSpace text with
  | 0x2B :: rest => if rest.head? = some 0x2D then none else some rest
  | rest => some rest

/-- A decorated integer without its decoration, if it may have been one: white space around
it, a plus, leading zeros, single underscores between digits, and a fraction of zeros. -/
def undecorated? (text : Text) : Option Text := do
  let body ← withoutZeros (← withoutPlus? text)
  let whole := dropZeroFraction body
  return (dropUnderscores? whole).getD whole

/-- An integer, decorated or not. -/
def integerText (text : Text) : Except Complaint Int :=
  match bareInteger text with
  | .error .integerSyntax =>
      match undecorated? text with
      | some bare => bareInteger bare
      | none => .error .integerSyntax
  | result => result

/-- A floating-point number: white space around it or underscores in it are allowed. -/
def realText? (text : Text) : Option Binary64 :=
  match Numeral.real? (Text.stripSpace text) with
  | some value => some value
  | none => (dropUnderscores? text).bind Numeral.real?

/-- The integer a floating-point number is. -/
def wholeReal (value : Binary64) : Except Complaint Int :=
  match value with
  | .nan | .infinite _ => .error .notFinite
  | .finite negative significand exponent =>
      let (numerator, denominator) := Binary64.ratio significand exponent
      if numerator % denominator = 0 then
        let magnitude : Int := numerator / denominator
        .ok (if negative then -magnitude else magnitude)
      else .error .fraction

/-- The text of a literal that holds one. -/
def textOf? : Literal → Option Text
  | .text text => some text
  | .bytes encoded => (Utf8.decode encoded).toOption
  | _ => none

/-- Reads a field that holds an integer. -/
def integer (given : Literal) : Except Complaint Int :=
  match given with
  | .integer value => .ok value
  | .real value => wholeReal value
  | .absent | .emptyList => .error .integerWanted
  | .text _ | .bytes _ =>
      match textOf? given with
      | some text => integerText text
      | none => .error .integerSyntax

/-- Reads a field that holds a floating-point number. -/
def real (given : Literal) : Except Complaint Binary64 :=
  match given with
  | .real value => .ok value
  | .integer value => .ok (.ofDecimal (value < 0) value.natAbs 0)
  | .absent | .emptyList => .error .numberWanted
  | .text _ | .bytes _ =>
      match (textOf? given).bind realText? with
      | some value => .ok value
      | none => .error .numberSyntax

/-- Reads an integer that is at least `least`. -/
def integerFrom (least : Int) (given : Literal) : Except Complaint Int := do
  let value ← integer given
  if value < least then throw (.tooSmall least) else return value

/-- A field that has to be given. -/
def required {α : Type} (place : String) (read : Literal → Except Complaint α) :
    Option Literal → Except FieldComplaint α
  | none => .error ⟨[place], .missing⟩
  | some given =>
      match read given with
      | .ok value => .ok value
      | .error complaint => .error ⟨[place], complaint⟩

end Field

/-! ## Spans -/

namespace Span

/-- A span, whose end must not precede its start. -/
def checked (start stop : Nat) : Except Fault Span :=
  if stop < start then .error (.invalid [⟨[], .broken (.spanReversed start stop)⟩])
  else .ok ⟨start, stop⟩

/-- A span from given fields. -/
def ofFields (start stop : Option Literal) : Except Fault Span :=
  match Field.required "start" (Field.integerFrom 0) start,
      Field.required "end" (Field.integerFrom 0) stop with
  | .ok start, .ok stop => checked start.toNat stop.toNat
  | .error first, .error second => .error (.invalid [first, second])
  | .error first, .ok _ => .error (.invalid [first])
  | .ok _, .error second => .error (.invalid [second])

/-- One more than the greatest index. -/
def indexLimit : Nat := 0x8000000000000000

/-- The length of a span, which must be an index. -/
def indexLength (span : Span) : Except Fault Nat :=
  if span.length < indexLimit then .ok span.length else .error .lengthOverflow

end Span

/-! ## Numbers -/

def NumberKind.ofLiteral (given : Literal) : Except Complaint NumberKind :=
  if given = .ofString "uint" then .ok .uint
  else if given = .ofString "integer" then .ok .integer
  else if given = .ofString "float" then .ok .float
  else .error .unknownKind

namespace NumberValue

def isNegative : NumberValue → Bool
  | .whole value => value < 0
  | .real value => value.isNegative

/-- A value keeps the type it is given in; a text is an integer if it can be one. -/
def ofLiteral (given : Literal) : Except (List FieldComplaint) NumberValue :=
  match given with
  | .integer value => .ok (.whole value)
  | .real value => .ok (.real value)
  | _ =>
      match Field.integer given, Field.real given with
      | .ok value, _ => .ok (.whole value)
      | .error _, .ok value => .ok (.real value)
      | .error first, .error second =>
          .error [⟨["value", "int"], first⟩, ⟨["value", "float"], second⟩]

end NumberValue

namespace Number

/-- A number that obeys its kind: an unsigned one is not negative, and only a floating-point
one may have a value that is no integer. -/
def checked (kind : NumberKind) (value : NumberValue) : Except Fault Number :=
  let refuse (rule : Rule) : Except Fault Number := .error (.invalid [⟨[], .broken rule⟩])
  match kind, value with
  | .uint, value =>
      if value.isNegative then refuse .negativeUint
      else
        match value with
        | .whole _ => .ok ⟨kind, value⟩
        | .real _ => refuse (.notIntegral kind)
  | .integer, .real _ => refuse (.notIntegral kind)
  | kind, value => .ok ⟨kind, value⟩

/-- A number from given fields. -/
def ofFields (kind value : Option Literal) : Except Fault Number :=
  let kindField := Field.required "kind" NumberKind.ofLiteral kind
  let valueField : Except (List FieldComplaint) NumberValue :=
    match value with
    | none => .error [⟨["value"], .missing⟩]
    | some given => NumberValue.ofLiteral given
  match kindField, valueField with
  | .ok kind, .ok value => checked kind value
  | .error first, .error rest => .error (.invalid (first :: rest))
  | .error first, .ok _ => .error (.invalid [first])
  | .ok _, .error rest => .error (.invalid rest)

end Number

end RecordScan
