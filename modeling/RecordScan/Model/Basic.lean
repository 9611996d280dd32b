import RecordScan.Decimal.Binary64
import RecordScan.Text.Code

/-!
Contract: what the grammars produce.

Owns: spans of a buffer, numbers with their kind, and key/value records.
Does not own: the checks on values given from outside (`RecordScan.Model.Check`).
-/

namespace RecordScan

/-- A half-open byte range `[start, stop)` of a buffer. -/
structure Span where
  start : Nat
  stop : Nat
deriving DecidableEq, Repr

/-- The bytes a span covers. -/
def Span.length (span : Span) : Nat :=
  span.stop - span.start

/-- How a number was written: without a sign or a point, with a sign, with a point. -/
inductive NumberKind where
  | uint
  | integer
  | float
deriving DecidableEq, Repr

def NumberKind.name : NumberKind → String
  | .uint => "uint"
  | .integer => "integer"
  | .float => "float"

inductive NumberValue where
  | whole (value : Int)
  | real (value : Binary64)
deriving DecidableEq, Repr

structure Number where
  kind : NumberKind
  value : NumberValue
deriving DecidableEq, Repr

/-- A line of the form `key: value`, and where it stands in the buffer. -/
structure KeyValue where
  key : Text
  value : Text
  span : Span
deriving DecidableEq, Repr

end RecordScan
