import RecordScan.Command.Job
import RecordScan.Settings.Load

/-!
Contract: a run among strings.

Owns: the surroundings of a run where arguments, paths and variables are strings:
the settings are loaded from the environment and a file, and no table of names is at
hand, so that an escape by name asks for a name that is not known.
Does not own: the run itself (`Surroundings.run`), which is the same for every table
and for all settings.
-/

namespace RecordScan

/-- Where further settings are looked for. -/
def Settings.path : String := ".env"

/-- The settings of a run. Without a file the environment alone is looked at. -/
def Settings.loadFrom (environment : List (String × String)) (content : FileContent) :
    Except Fault Settings :=
  match content with
  | .file bytes =>
      match Utf8.decode bytes with
      | .ok text => load environment (some text.toString)
      | .error defect =>
          let sequence := Utf8.illFormed (bytes.drop defect.offset)
          .error (.undecodable defect.offset sequence defect.reason)
  | _ => load environment none

/-- The table that knows no name. -/
def CharacterNames.empty : CharacterNames :=
  fun _ => none

/-- Surroundings in which paths are strings. At a path that is none there is no file. -/
def Surroundings.ofStrings (environment : List (String × String))
    (files : String → FileContent) : Surroundings where
  names := .empty
  settings := Settings.loadFrom environment (files Settings.path)
  files := fun path => if path.hasSurrogate then .missing else files path.toString

/-- A whole run among strings. -/
def run (environment : List (String × String)) (files : String → FileContent)
    (arguments : List String) : Report :=
  (Surroundings.ofStrings environment files).run (arguments.map Text.ofString)

end RecordScan
