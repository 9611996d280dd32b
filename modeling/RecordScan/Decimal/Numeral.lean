import RecordScan.Decimal.Binary64
import RecordScan.Text.Blank
import RecordScan.Text.DecimalDigit

/-!
Contract: reading integers and floating-point numbers from texts.

Owns: the grammar of numerals. Digits of every script count, white space around
a numeral is dropped, and single underscores may separate digits. An integer
has at most `digitLimit` digits.
-/

namespace RecordScan.Numeral

/-- Digits an integer numeral may have, leading zeros included. -/
def digitLimit : Nat := 4300

/-- Why a text is no integer numeral. -/
inductive Refusal where
  | malformed
  | tooLong (digits : Nat)
deriving DecidableEq, Repr

/-! ## Characters -/

def isDigit (code : Code) : Bool :=
  0x30 ≤ code && code ≤ 0x39

/-- White space of the ASCII range. -/
def isAsciiSpace (code : Code) : Bool :=
  code = 0x20 || (0x09 ≤ code && code ≤ 0x0D)

/-- A character by its role in a numeral: the digits of every script are written as
ASCII digits, white space as a space, and what can stand in no numeral as `?`. -/
def plainCode (code : Code) : Code :=
  if code < 0x7F then code
  else if Text.isSpace code then 0x20
  else
    match Text.decimalValue? code with
    | some value => 0x30 + value
    | none => 0x3F

def plain (text : Text) : Text :=
  text.map plainCode

/-- Splits off a sign; `true` for a minus. -/
def takeSign : Text → Bool × Text
  | 0x2D :: rest => (true, rest)
  | 0x2B :: rest => (false, rest)
  | text => (false, text)

/-- The number that a run of digits writes. -/
def digitsValue (digits : List Nat) : Nat :=
  digits.foldl (fun value digit => value * 10 + digit) 0

/-- The values of digits that single underscores may separate. -/
def ungroup? : (afterDigit : Bool) → Text → Option (List Nat)
  | afterDigit, [] => if afterDigit then some [] else none
  | afterDigit, code :: rest =>
      if isDigit code then (ungroup? true rest).map ((code - 0x30) :: ·)
      else if code = 0x5F && afterDigit then ungroup? false rest
      else none

/-! ## Integers -/

/-- Reads an integer numeral that fills the text. -/
def readInteger (text : Text) : Except Refusal Int :=
  let (negative, body) := takeSign ((plain text).dropWhile isAsciiSpace)
  let isGrouped (code : Code) : Bool := isDigit code || code = 0x5F
  match ungroup? false (body.takeWhile isGrouped) with
  | none => .error .malformed
  | some digits =>
      if digitLimit < digits.length then .error (.tooLong digits.length)
      else if (body.dropWhile isGrouped).all isAsciiSpace then
        let magnitude : Int := digitsValue digits
        .ok (if negative then -magnitude else magnitude)
      else .error .malformed

/-! ## Floating-point numbers -/

/-- Letters without their case. -/
def lowerCode (code : Code) : Code :=
  if 0x41 ≤ code ∧ code ≤ 0x5A then code + 0x20 else code

/-- The numbers that are written as words. -/
def word? (negative : Bool) (body : Text) : Option Binary64 :=
  let lowered := body.map lowerCode
  if lowered = Text.ofString "inf" || lowered = Text.ofString "infinity" then
    some (.infinite negative)
  else if lowered = Text.ofString "nan" then some .nan
  else none

/-- Reads `e` with a sign and digits, or nothing, up to the end. -/
def exponent? : Text → Option Int
  | [] => some 0
  | mark :: rest =>
      if lowerCode mark = 0x65 then
        let (negative, digits) := takeSign rest
        if digits.isEmpty || !digits.all isDigit then none
        else
          let magnitude : Int := digitsValue (digits.map (· - 0x30))
          some (if negative then -magnitude else magnitude)
      else none

/-- Splits off a point and the digits after it, if there is a point. -/
def takeFraction : Text → Text × Text
  | 0x2E :: rest => (rest.takeWhile isDigit, rest.dropWhile isDigit)
  | text => ([], text)

/-- Reads a floating-point numeral of ASCII characters that fills the text. -/
def real? (text : Text) : Option Binary64 :=
  let (negative, body) := takeSign text
  match word? negative body with
  | some number => some number
  | none =>
      let whole := body.takeWhile isDigit
      let (fraction, rest) := takeFraction (body.dropWhile isDigit)
      let digits := whole ++ fraction
      if digits.isEmpty then none
      else
        (exponent? rest).map fun exponent =>
          .ofDecimal negative (digitsValue (digits.map (· - 0x30)))
            (exponent - fraction.length)

/-- Drops underscores, each of which must stand between two digits. -/
def dropMarks? : (afterDigit afterMark : Bool) → Text → Option Text
  | _, afterMark, [] => if afterMark then none else some []
  | afterDigit, afterMark, code :: rest =>
      if code = 0x5F then if afterDigit then dropMarks? false true rest else none
      else if afterMark && !isDigit code then none
      else (dropMarks? (isDigit code) false rest).map (code :: ·)

/-- Reads a floating-point numeral that fills the text. -/
def readReal (text : Text) : Option Binary64 :=
  let body := (plain text).dropWhile isAsciiSpace
  let body := (body.reverse.dropWhile isAsciiSpace).reverse
  (dropMarks? false false body).bind real?

end RecordScan.Numeral
