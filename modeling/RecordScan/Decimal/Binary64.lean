/-!
Contract: binary floating-point numbers of 64 bits, in exact arithmetic.

Owns: the numbers and the correctly rounded reading of a decimal.
Does not own: decimal texts (`RecordScan.Decimal.Numeral`) or printing
(`RecordScan.Decimal.Shortest`, `RecordScan.Decimal.Written`).
-/

namespace RecordScan

/-- A number of the binary64 format. `finite n m q` is `m * 2 ^ q`, negated if `n`;
zero keeps its sign. -/
inductive Binary64 where
  | nan
  | infinite (negative : Bool)
  | finite (negative : Bool) (significand : Nat) (exponent : Int)
deriving DecidableEq, Repr

namespace Binary64

/-- Binary digits of a significand. -/
def precision : Nat := 53

/-- The exponent of the numbers nearest to zero. -/
def leastExponent : Int := -1074

/-- The exponent of the largest numbers. -/
def greatestExponent : Int := 971

/-- The quotient rounded to the nearest integer, a half to the even one. -/
def roundQuotient (numerator denominator : Nat) : Nat :=
  let quotient := numerator / denominator
  let twice := 2 * (numerator % denominator)
  if twice < denominator then quotient
  else if denominator < twice then quotient + 1
  else quotient + quotient % 2

/-- The fraction `(numerator / denominator) / 2 ^ exponent`. -/
def scale (numerator denominator : Nat) (exponent : Int) : Nat × Nat :=
  (numerator * Nat.pow 2 (-exponent).toNat, denominator * Nat.pow 2 exponent.toNat)

/-- The exponent at which a positive fraction fills the significand, or the least one. -/
def exponentOf (numerator denominator : Nat) : Int :=
  let guess : Int := (numerator.log2 : Int) - (denominator.log2 : Int) - precision
  let scaled := scale numerator denominator guess
  let exact := if scaled.1 / scaled.2 < Nat.pow 2 precision then guess else guess + 1
  max exact leastExponent

/-- The number nearest to a fraction, of two equally near the one with an even
significand; past the largest number, infinity. -/
def ofRatio (negative : Bool) (numerator denominator : Nat) : Binary64 :=
  if numerator = 0 then .finite negative 0 leastExponent
  else
    let exponent := exponentOf numerator denominator
    let scaled := scale numerator denominator exponent
    let rounded := roundQuotient scaled.1 scaled.2
    let carried := rounded = Nat.pow 2 precision
    let significand := if carried then Nat.pow 2 (precision - 1) else rounded
    let exponent := if carried then exponent + 1 else exponent
    if greatestExponent < exponent then .infinite negative
    else .finite negative significand exponent

/-- Decimal digits of a number; one for zero. -/
def digitCount (number : Nat) : Nat :=
  (Nat.toDigits 10 number).length

/-- The order of magnitude beyond which a decimal is infinite or zero. -/
def magnitudeLimit : Int := 400

/-- The number nearest to `digits * 10 ^ exponent`. -/
def ofDecimal (negative : Bool) (digits : Nat) (exponent : Int) : Binary64 :=
  let magnitude : Int := digitCount digits + exponent
  if digits = 0 || magnitude < -magnitudeLimit then .finite negative 0 leastExponent
  else if magnitudeLimit < magnitude then .infinite negative
  else ofRatio negative (digits * Nat.pow 10 exponent.toNat) (Nat.pow 10 (-exponent).toNat)

/-- Below zero; a negative zero is not. -/
def isNegative : Binary64 → Bool
  | .nan => false
  | .infinite negative => negative
  | .finite negative significand _ => negative && significand != 0

/-- A finite number as a fraction. -/
def ratio (significand : Nat) (exponent : Int) : Nat × Nat :=
  (significand * Nat.pow 2 exponent.toNat, Nat.pow 2 (-exponent).toNat)

end Binary64

end RecordScan
