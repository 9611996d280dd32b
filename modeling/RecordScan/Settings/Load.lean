import RecordScan.Model.Check
import RecordScan.Settings.Basic
import RecordScan.Settings.EnvFile
import RecordScan.Text.Lowercase

/-!
Contract: loading the settings.

Owns: which variables set what, the precedence of the environment over the file,
the checks on each field, and the refusal of variables in the file that set
nothing.
-/

namespace RecordScan.Settings

/-- Variables by their names in lower case. Of two values the later one counts. -/
abbrev Variables := List (String × String)

/-- A name without regard to case. -/
def lowered (name : String) : String :=
  (Text.lower (Text.ofString name)).toString

/-- Binds a name in lower case; a name that is bound already keeps its place. -/
def bind (bound : Variables) (name value : String) : Variables :=
  let name := lowered name
  if bound.any (·.1 == name) then
    bound.map fun entry => if entry.1 == name then (name, value) else entry
  else bound ++ [(name, value)]

def ofEnvironment (environment : List (String × String)) : Variables :=
  environment.foldl (fun bound entry => bind bound entry.1 entry.2) []

/-- The variables of a file. A name without a value is bound no longer. -/
def ofEnvFile (environment : List (String × String)) (file : String) : Variables :=
  (EnvFile.read environment file).foldl
    (fun bound binding =>
      match binding.value with
      | some value => bind bound binding.name value
      | none => bound.filter (·.1 != lowered binding.name))
    []

/-- The names of the fields. -/
def fieldNames : List String :=
  ["log_level", "delimiter", "text_mode", "max_segments"]

/-- The variable that sets a field. -/
def variableOf (field : String) : String :=
  "byteparse_" ++ field

/-- The value given for a field. -/
def given? (environment file : Variables) (field : String) : Option String :=
  let name := variableOf field
  (environment.lookup name).or (file.lookup name)

/-! ## Fields -/

def truthWords : List String := ["1", "true", "t", "yes", "y", "on"]

def falsehoodWords : List String := ["0", "false", "f", "no", "n", "off"]

/-- A truth value by one of its words, in any case. -/
def truth (word : String) : Except Complaint Bool :=
  if truthWords.contains word.toLower then .ok true
  else if falsehoodWords.contains word.toLower then .ok false
  else .error .truthSyntax

def delimiterText (text : String) : Except Complaint String :=
  if text.isEmpty then .error .tooShort else .ok text

def segmentLimit (text : String) : Except Complaint (Option Nat) :=
  (Field.integerFrom 1 (.ofString text)).map fun limit => some limit.toNat

/-- Reads a field, which keeps its default if nothing is given. -/
def field {α : Type} (environment file : Variables) (name : String) (unset : α)
    (read : String → Except Complaint α) : Except FieldComplaint α :=
  match given? environment file name with
  | none => .ok unset
  | some text =>
      match read text with
      | .ok value => .ok value
      | .error complaint => .error ⟨[name], complaint⟩

/-- The complaint of a field that was refused. -/
def complaintOf {α : Type} : Except FieldComplaint α → List FieldComplaint
  | .ok _ => []
  | .error complaint => [complaint]

/-- Variables of the file that set nothing. One without a value, or named like a field, is let
pass. -/
def extras (file : Variables) : List FieldComplaint :=
  let settles (name : String) : Bool :=
    fieldNames.contains name || fieldNames.any (variableOf · == name)
  (file.filter fun entry => !entry.2.isEmpty && !settles entry.1).map
    fun entry => ⟨[entry.1], .extra⟩

/-- Loads the settings. Complaints come in the order of the fields, extra variables last. -/
def load (environment : List (String × String)) (file : Option String) :
    Except Fault Settings :=
  let file := (file.map (ofEnvFile environment)).getD []
  let environment := ofEnvironment environment
  let logLevel := field environment file "log_level" default.logLevel .ok
  let delimiter := field environment file "delimiter" default.delimiter delimiterText
  let textMode := field environment file "text_mode" default.textMode truth
  let maxSegments := field environment file "max_segments" default.maxSegments segmentLimit
  let extra := extras file
  match logLevel, delimiter, textMode, maxSegments, extra with
  | .ok logLevel, .ok delimiter, .ok textMode, .ok maxSegments, [] =>
      .ok ⟨logLevel, delimiter, textMode, maxSegments⟩
  | _, _, _, _, _ =>
      .error (.invalid (complaintOf logLevel ++ complaintOf delimiter ++ complaintOf textMode ++
        complaintOf maxSegments ++ extra))

end RecordScan.Settings
