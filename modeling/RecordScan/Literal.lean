import RecordScan.Decimal.Written
import RecordScan.Text.Quoted

/-!
Contract: the literals callers pass where a unit, a field or a delimiter is wanted.

Owns: the two modes of scanning, the literals, and how messages show them.
Does not own: which literals stand for a unit (`RecordScan.Scan.Unit`).
-/

namespace RecordScan

/-- What the units of a buffer are: its bytes, or the scalars of its UTF-8 text. -/
inductive Mode where
  | bytes
  | text
deriving DecidableEq, Repr

/-- A value given by a caller. -/
inductive Literal where
  | absent
  | integer (value : Int)
  | real (value : Binary64)
  | text (value : Text)
  | bytes (value : List UInt8)
  /-- No value where one or more could stand. -/
  | emptyList
deriving DecidableEq, Repr

namespace Literal

def ofString (string : String) : Literal :=
  .text (Text.ofString string)

/-- A literal as messages show it. -/
def shown : Literal → String
  | .absent => "None"
  | .integer value => toString value
  | .real value => value.write .plain
  | .text value => Text.quoted value
  | .bytes value => Text.quotedBytes value
  | .emptyList => "[]"

/-- The name of a literal's kind in messages. -/
def kindName : Literal → String
  | .absent => "NoneType"
  | .integer _ => "int"
  | .real _ => "float"
  | .text _ => "str"
  | .bytes _ => "bytes"
  | .emptyList => "list"

end Literal

end RecordScan
