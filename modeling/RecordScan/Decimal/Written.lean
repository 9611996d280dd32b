import RecordScan.Decimal.Shortest

/-!
Contract: the written form of a binary floating-point number.

Owns: the decisions of the format, gathered in `Form`, and the rendering of a
shortest decimal under them.
-/

namespace RecordScan.Binary64

/-- How numbers are written. -/
structure Form where
  /-- The least exponent of the leading digit that is written positionally. -/
  leastPositional : Int
  /-- The least exponent of the leading digit that is written with an exponent again. -/
  greatestPositional : Int
  /-- Digits of an exponent at least. -/
  exponentWidth : Nat
  infinity : String
  nan : String

/-- In messages and values: positional from 1e-4 up to 1e16, exponents of two digits
at least. -/
def Form.plain : Form := ⟨-4, 16, 2, "inf", "nan"⟩

/-- In printed results, which name the numbers that are not finite in another way. -/
def Form.result : Form := { Form.plain with infinity := "Infinity", nan := "NaN" }

def zeros (count : Nat) : List Char :=
  List.replicate count '0'

/-- Digits with a point after the first `count`, which keeps a digit on both sides. -/
def positional (digits : List Char) (leading : Int) : List Char :=
  if leading < 0 then '0' :: '.' :: zeros (-leading - 1).toNat ++ digits
  else
    let count := leading.toNat + 1
    let whole := digits.take count ++ zeros (count - digits.length)
    let fraction := digits.drop count
    whole ++ '.' :: (if fraction.isEmpty then ['0'] else fraction)

/-- One digit before the point, and an exponent with its sign. -/
def scientific (form : Form) (digits : List Char) (leading : Int) : List Char :=
  let fraction := digits.drop 1
  let exponent := Nat.toDigits 10 leading.natAbs
  digits.take 1 ++ (if fraction.isEmpty then [] else '.' :: fraction) ++
    'e' :: (if leading < 0 then '-' else '+') ::
      zeros (form.exponentWidth - exponent.length) ++ exponent

/-- The written form of a finite number without its sign. -/
def writeMagnitude (form : Form) (significand : Nat) (exponent : Int) : List Char :=
  if significand = 0 then ['0', '.', '0']
  else
    let (digits, unit) := shortest significand exponent
    let digits := Nat.toDigits 10 digits
    let leading : Int := unit + digits.length - 1
    if form.leastPositional ≤ leading ∧ leading < form.greatestPositional then
      positional digits leading
    else scientific form digits leading

/-- The written form of a number. -/
def write (form : Form) : Binary64 → String
  | .nan => form.nan
  | .infinite negative => if negative then "-" ++ form.infinity else form.infinity
  | .finite negative significand exponent =>
      let magnitude := writeMagnitude form significand exponent
      String.ofList (if negative then '-' :: magnitude else magnitude)

end RecordScan.Binary64
