import RecordScan.Decimal.Binary64

/-!
Contract: the shortest decimal that reads back as a given number.

Owns: the search over the decimal grids. On the grid of 1, 2, … 17 digits the
two neighbours of the number are read back; the first grid with a hit wins, of
two hits the nearer one, and of two equally near ones the even one.
-/

namespace RecordScan.Binary64

/-- The exponent of the leading decimal digit of a positive fraction. -/
def leadingExponent (numerator denominator : Nat) : Int :=
  if denominator ≤ numerator then (digitCount (numerator / denominator) : Int) - 1
  else -(digitCount ((denominator - 1) / numerator) : Int)

/-- The decimals of `count` digits that read back as `number`, the best one if any. -/
def candidate? (number : Binary64) (numerator denominator : Nat) (leading : Int)
    (count : Nat) : Option (Nat × Int) :=
  let unit : Int := leading + 1 - count
  let numerator := numerator * Nat.pow 10 (-unit).toNat
  let denominator := denominator * Nat.pow 10 unit.toNat
  let below := numerator / denominator
  let reads (digits : Nat) : Bool := ofDecimal false digits unit = number
  match reads below, reads (below + 1) with
  | true, true => some (roundQuotient numerator denominator, unit)
  | true, false => some (below, unit)
  | false, true => some (below + 1, unit)
  | false, false => none

/-- Moves the zeros at the end of a decimal into its exponent. -/
def dropZeros : (fuel : Nat) → Nat × Int → Nat × Int
  | 0, decimal => decimal
  | fuel + 1, (digits, exponent) =>
      if digits != 0 && digits % 10 = 0 then dropZeros fuel (digits / 10, exponent + 1)
      else (digits, exponent)

/-- The digits and the decimal exponent of a positive number. -/
def shortest (significand : Nat) (exponent : Int) : Nat × Int :=
  let (numerator, denominator) := ratio significand exponent
  let leading := leadingExponent numerator denominator
  let number := Binary64.finite false significand exponent
  let found := (List.range' 1 17).findSome? fun count =>
    candidate? number numerator denominator leading count
  dropZeros 17 (found.getD (0, 0))

end RecordScan.Binary64
