import RecordScan.Model.Basic

/-!
Contract: what can be wrong with the fields of a model.

Owns: the complaints, the place each one names, and their wording.
-/

namespace RecordScan

/-- A rule that joins several fields of a model. -/
inductive Rule where
  | spanReversed (start stop : Nat)
  | negativeUint
  | notIntegral (kind : NumberKind)
deriving DecidableEq, Repr

def Rule.message : Rule → String
  | .spanReversed start stop => s!"span end {stop} precedes start {start}"
  | .negativeUint => "uint cannot be negative"
  | .notIntegral kind => kind.name ++ " needs an integral value"

/-- What is wrong with one field, or with all of them together. -/
inductive Complaint where
  | missing
  | integerWanted
  | integerSyntax
  /-- More digits than are ever read. -/
  | integerSize
  | fraction
  | notFinite
  | numberWanted
  | numberSyntax
  | tooSmall (least : Int)
  | unknownKind
  | tooShort
  | truthSyntax
  | extra
  | broken (rule : Rule)
deriving DecidableEq, Repr

namespace Complaint

/-- The short name of a complaint. -/
def name : Complaint → String
  | .missing => "missing"
  | .integerWanted => "int_type"
  | .integerSyntax => "int_parsing"
  | .integerSize => "int_parsing_size"
  | .fraction => "int_from_float"
  | .notFinite => "finite_number"
  | .numberWanted => "float_type"
  | .numberSyntax => "float_parsing"
  | .tooSmall _ => "greater_than_equal"
  | .unknownKind => "enum"
  | .tooShort => "string_too_short"
  | .truthSyntax => "bool_parsing"
  | .extra => "extra_forbidden"
  | .broken _ => "value_error"

def message : Complaint → String
  | .missing => "Field required"
  | .integerWanted => "Input should be a valid integer"
  | .integerSyntax =>
      "Input should be a valid integer, unable to parse string as an integer"
  | .integerSize => "Unable to parse input string as an integer, exceeded maximum size"
  | .fraction => "Input should be a valid integer, got a number with a fractional part"
  | .notFinite => "Input should be a finite number"
  | .numberWanted => "Input should be a valid number"
  | .numberSyntax => "Input should be a valid number, unable to parse string as a number"
  | .tooSmall least => s!"Input should be greater than or equal to {least}"
  | .unknownKind => "Input should be 'uint', 'integer' or 'float'"
  | .tooShort => "String should have at least 1 character"
  | .truthSyntax => "Input should be a valid boolean, unable to interpret input"
  | .extra => "Extra inputs are not permitted"
  | .broken rule => "Value error, " ++ rule.message

end Complaint

/-- A complaint and the field it is about; no field for a rule on the whole model. -/
structure FieldComplaint where
  place : List String
  complaint : Complaint
deriving DecidableEq, Repr

end RecordScan
