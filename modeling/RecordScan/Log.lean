import RecordScan.Fault

/-!
Contract: what is logged.

Owns: the events with their fields and levels, the thresholds by name, and the
event that a rejected number leaves.
-/

namespace RecordScan

/-- The weight of an event. -/
inductive Level where
  | debug
  | warning
  | error
deriving DecidableEq, Repr

namespace Level

def name : Level → String
  | .debug => "debug"
  | .warning => "warning"
  | .error => "error"

/-- Levels as thresholds see them. -/
def weight : Level → Nat
  | .debug => 10
  | .warning => 30
  | .error => 40

/-- The capital of a letter of a threshold's name. Two letters outside ASCII have ASCII
capitals. -/
def capital (letter : Char) : Char :=
  if letter = 'ı' then 'I' else if letter = 'ſ' then 'S' else letter.toUpper

/-- The least weight that is shown under a threshold of this name, in any case. Unknown names
stand for warnings, among them all that hold a lone surrogate. -/
def threshold (name : Text) : Nat :=
  match String.ofList (name.map fun code => capital (Char.ofNat code)) with
  | "NOTSET" => 0
  | "DEBUG" => 10
  | "INFO" => 20
  | "ERROR" => 40
  | "CRITICAL" | "FATAL" => 50
  | _ => 30

end Level

inductive Rejection where
  | noLeadingDigit
  | trailingInput
deriving DecidableEq, Repr

def Rejection.name : Rejection → String
  | .noLeadingDigit => "no_leading_digit"
  | .trailingInput => "trailing_input"

inductive Event where
  /-- A cursor that does not hold exactly a number. -/
  | numberRejected (reason : Rejection) (offset : Nat)
  /-- Key/value lines were read. -/
  | keyValuesParsed (lines : Nat)
  /-- A segment of the numbers command is no number. -/
  | numberParseFailed (segment : Nat) (error : String)
  /-- A command failed on its input. -/
  | parseFailed (command : String) (input : Text) (error : String)
deriving DecidableEq, Repr

/-- The content of an event's field. -/
inductive EventField where
  | number (value : Nat)
  | text (value : String)
deriving DecidableEq, Repr

namespace Event

def name : Event → String
  | .numberRejected .. => "number_rejected"
  | .keyValuesParsed .. => "key_values_parsed"
  | .numberParseFailed .. => "number_parse_failed"
  | .parseFailed .. => "parse_failed"

def level : Event → Level
  | .numberRejected .. | .keyValuesParsed .. => .debug
  | .numberParseFailed .. => .warning
  | .parseFailed .. => .error

def fields : Event → List (String × EventField)
  | .numberRejected reason offset => [("reason", .text reason.name), ("offset", .number offset)]
  | .keyValuesParsed lines => [("lines", .number lines)]
  | .numberParseFailed segment error => [("segment", .number segment), ("error", .text error)]
  | .parseFailed command input error =>
      [("cmd", .text command), ("input", .text input.display), ("error", .text error)]

/-- Whether an event passes a threshold. -/
def passes (event : Event) (threshold : Nat) : Bool :=
  threshold ≤ event.level.weight

/-- What reading a number that must fill its cursor logs when it is refused. -/
def ofRefusedNumber : Fault → List Event
  | .noNumber offset => [.numberRejected .noLeadingDigit offset]
  | .unexpected _ _ offset => [.numberRejected .trailingInput offset]
  | _ => []

end Event

end RecordScan
