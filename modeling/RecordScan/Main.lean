import RecordScan.Command.Run

/-!
Contract: the program on a machine.

Owns: fetching the environment and the files that a run asks for, and putting out
its report. Everything that is decided is decided by `Job.prepare` and `Job.report`,
as in `Surroundings.run`.
-/

namespace RecordScan

/-- The environment as far as the settings look at it. -/
def fetchEnvironment : IO (List (String × String)) := do
  let names := Settings.fieldNames.map fun field => (Settings.variableOf field).toUpper
  names.filterMapM fun name => do
    return (← IO.getEnv name).map fun value => (name, value)

/-- What stands at a path of the file system. A path that cannot be opened is named by the
failure; a directory can be opened, and fails when it is read. -/
def fetchFile (path : String) : IO FileContent := do
  try
    return .file (← IO.FS.readBinFile path).toList
  catch
    | .noFileOrDirectory .. => return .missing
    | .inappropriateType (some _) .. => return .notDirectory
    | .inappropriateType none .. => return .directory
    | .invalidArgument .. => return .nameTooLong
    | failure => throw failure

/-- Prepares a job, then fetches its input. -/
def fetchAndRun (arguments : List String) : IO Report := do
  let settings := Settings.loadFrom (← fetchEnvironment) (← fetchFile Settings.path)
  match Job.prepare settings (arguments.map Text.ofString) with
  | .error report => return report
  | .ok job => return job.report .empty (← fetchFile job.path.toString)

end RecordScan

def main (arguments : List String) : IO UInt32 := do
  let report ← RecordScan.fetchAndRun arguments
  IO.print report.output
  for line in report.diagnostics do
    IO.eprintln line
  return report.ending.status.toUInt32
