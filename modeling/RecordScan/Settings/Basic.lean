/-!
Contract: the settings of the command line.

Owns: what can be set, and what holds without any variable.
Does not own: where the settings come from (`RecordScan.Settings.Load`). A run is
given what loading them answers.
-/

namespace RecordScan

structure Settings where
  logLevel : String
  delimiter : String
  textMode : Bool
  maxSegments : Option Nat
deriving DecidableEq, Repr

/-- The settings without any variable. -/
def Settings.default : Settings :=
  ⟨"warning", "\n", true, none⟩

end RecordScan
