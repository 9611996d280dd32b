import RecordScan.Command.Delimiter
import RecordScan.Command.Options
import RecordScan.Command.Path
import RecordScan.Command.Result
import RecordScan.Settings.Basic

/-!
Contract: a run of the command line, from its surroundings to its report.

Owns: the order in which settings, arguments and input are looked at, the choice
between an option and the setting behind it, and the report: what is printed,
which events are shown, and how the run ends.
Does not own: what a run takes from outside (`Surroundings`). It is given the
names of characters, what loading the settings answers, and a function from
paths to what stands there. Nothing is assumed of them.
-/

namespace RecordScan

/-- How a run ends. -/
inductive Ending where
  /-- The command was run, or none was named. -/
  | finished (status : Nat)
  /-- The arguments ended the run: help was asked for, or they were misused, of which the
  complaint tells after the usage. -/
  | exited (status : Nat) (complaint : Option String)
  /-- A refusal that is not the input's. -/
  | refused (fault : Fault)
deriving DecidableEq, Repr

structure Report where
  output : String
  /-- The events that pass the threshold. -/
  events : List Event
  ending : Ending
deriving DecidableEq, Repr

/-- The status of a run. -/
def Ending.status : Ending → Nat
  | .finished status => status
  | .exited status _ => status
  | .refused _ => 1

/-! ## Diagnostics -/

def EventField.document : EventField → JsonValue
  | .number value => .integer value
  | .text value => .string (Text.ofString value)

/-- A field of an event as a document. The input is written as it was typed, surrogates and
all. -/
def Event.document (event : Event) (name : String) (field : EventField) : JsonValue :=
  match event, name with
  | .parseFailed _ input _, "input" => .string input
  | _, _ => field.document

/-- The line of an event: its own fields, its name and its level. -/
def Event.line (event : Event) : String :=
  let fields := event.fields.map fun entry => (entry.1, event.document entry.1 entry.2)
  let label := [("event", event.name), ("level", event.level.name)].map fun entry =>
    (entry.1, JsonValue.string (Text.ofString entry.2))
  (JsonValue.object (fields ++ label)).write .line 0

/-- What tells of a refusal that ends the run. -/
def Fault.diagnosis : Fault → String
  | .invalid complaints =>
      "\n".intercalate (complaints.map fun found =>
        ".".intercalate found.place ++ ": " ++ found.complaint.message)
  | fault => fault.message

/-- The lines beside the output: the events, then what the ending has to say. -/
def Report.diagnostics (report : Report) : List String :=
  report.events.map Event.line ++
    match report.ending with
    | .finished _ => []
    | .exited _ complaint => complaint.toList
    | .refused fault => [fault.diagnosis]

/-! ## Jobs -/

/-- A command with the settings it runs under. -/
structure Job where
  request : Options.Request
  settings : Settings
  /-- The least weight of the events that are shown. -/
  threshold : Nat
deriving DecidableEq, Repr

namespace Job

def mode (job : Job) : Mode :=
  if job.settings.textMode && !job.request.bytes then .text else .bytes

/-- The delimiter as it was typed. -/
def delimiter (job : Job) : Literal :=
  match job.request.delimiter with
  | some (.value raw) => .text raw
  | some .emptied => .emptyList
  | none => .ofString job.settings.delimiter

/-- How many segments are looked at, if there is a limit. -/
def limit (job : Job) : Except Fault (Option Nat) :=
  match job.request.maxSegments with
  | some (.value limit) => .ok (some limit)
  | some .emptied => .error .limitNotNumber
  | none => .ok job.settings.maxSegments

def path (job : Job) : Text :=
  Path.plain job.request.input

/-- A unit of a mode as a pattern. -/
def unitPattern : Mode → Code → Pattern
  | .bytes, code => .literal (.integer code)
  | .text, code => .literal (.text [code])

/-- The bytes at the path of the input. -/
def bytes (job : Job) : FileContent → Except Fault (List UInt8)
  | .missing => .error (.fileMissing job.path)
  | .directory => .error (.fileIsDirectory job.path)
  | .notDirectory => .error (.notDirectory job.path)
  | .nameTooLong => .error (.nameTooLong job.path)
  | .file bytes => .ok bytes

/-- The segments of the input, as many as the limit admits. The limit is looked at last,
when there are segments to count. -/
def segments (job : Job) (names : CharacterNames) (content : FileContent) :
    Except Fault (List View) := do
  Path.check job.path
  let source ← Source.ofInput job.mode (.bytes (← job.bytes content))
  let delimiter ← Delimiter.unit names job.mode job.delimiter
  let sweep := View.sweep ⟨source, []⟩ (unitPattern job.mode delimiter)
    (fun segment => return segment) ⟨source.start, false⟩
  match sweep.fault with
  | some fault => throw fault
  | none =>
      match ← job.limit with
      | some limit => return sweep.results.take limit
      | none => return sweep.results

/-- What the command logs and prints. -/
def print (job : Job) (names : CharacterNames) (content : FileContent) :
    List Event × Except Fault String :=
  match job.segments names content with
  | .error fault => ([], .error fault)
  | .ok segments => job.request.command.print job.request.summary segments

/-- The event that tells of an input that cannot be read. -/
def failure (job : Job) (fault : Fault) : Event :=
  .parseFailed job.request.command.name job.request.input fault.message

/-- Runs the command on its input. A failed parse is logged and makes the status one. -/
def report (job : Job) (names : CharacterNames) (content : FileContent) : Report :=
  let shown (events : List Event) : List Event := events.filter (·.passes job.threshold)
  match job.print names content with
  | (events, .ok output) => ⟨output, shown events, .finished 0⟩
  | (events, .error fault) =>
      if fault.isParseFailure then ⟨"", shown (events ++ [job.failure fault]), .finished 1⟩
      else ⟨"", shown events, .refused fault⟩

end Job

/-! ## Runs -/

/-- The report of arguments that end the run. -/
def Options.LevelExit.report (ended : LevelExit) : Report :=
  match ended.exit with
  | .help => ⟨(ended.level.map Help.ofCommand).getD Help.top, [], .exited 0 none⟩
  | .misuse misuse =>
      let usage := (ended.level.map Help.usage).getD Help.topUsage
      let program := (ended.level.map Help.programOf).getD Help.program
      let complaint := program ++ ": error: " ++ misuse.message
      ⟨"", [], .exited 2 (some (Help.lines usage ++ complaint))⟩

/-- The name of the level from which events are shown. An empty one counts as none given. -/
def Options.Invocation.levelName (invocation : Invocation) (settings : Settings) : Text :=
  match invocation.logLevel with
  | some (.value name) => if name.isEmpty then Text.ofString settings.logLevel else name
  | _ => Text.ofString settings.logLevel

/-- Reads the arguments under the settings, if these could be loaded: a job, or a report that
there is none. -/
def Job.prepare (settings : Except Fault Settings) (arguments : List Text) : Except Report Job :=
  match settings with
  | .error fault => .error ⟨"", [], .refused fault⟩
  | .ok settings =>
      match Options.read arguments with
      | .error ended => .error ended.report
      | .ok invocation =>
          match invocation.request with
          | none => .error ⟨Help.top, [], .finished 2⟩
          | some request =>
              .ok ⟨request, settings, Level.threshold (invocation.levelName settings)⟩

/-- What a run takes from outside. -/
structure Surroundings where
  names : CharacterNames
  /-- What loading the settings answers. -/
  settings : Except Fault Settings
  /-- What stands at a plain path. -/
  files : Text → FileContent

/-- A whole run. -/
def Surroundings.run (around : Surroundings) (arguments : List Text) : Report :=
  match Job.prepare around.settings arguments with
  | .error report => report
  | .ok job => job.report around.names (around.files job.path)

end RecordScan
