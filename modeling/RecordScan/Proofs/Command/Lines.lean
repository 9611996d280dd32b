import RecordScan.Proofs.Command.Delimiter
import RecordScan.Proofs.Grammar.KeyValue

/-!
Contract: the segments of a job are the lines of its file.

Owns: the units of a file (`Mode.units?`) and its lines (`lines`), which are what stands
between its delimiters, up to the limit; that the segments of a job are these lines, each
a source of its own (`Job.segments_eq`); and the four ways in which a job has no segments:
the file is no text, the delimiter stands for nothing, it stands for a lone surrogate, or
the limit is no number. `Job.exists_of_segments` says that there are no others. It owns as
well how a job is reported, by what its command answers.

Does not own: what a command makes of the lines.
-/

namespace RecordScan

/-- Results are compared as options, whose equality can be decided. -/
theorem ok_of_toOption {ε α : Type} {answer : Except ε α} {value : α}
    (isSome : answer.toOption = some value) : answer = .ok value := by
  cases answer with
  | error fault => cases isSome
  | ok result => exact congrArg Except.ok (Option.some.inj isSome)

/-! ## Lines -/

/-- The units of a buffer: its bytes, or the text that they encode. -/
def Mode.units? (mode : Mode) (bytes : List UInt8) : Except Utf8.Defect Text :=
  match mode with
  | .bytes => .ok (bytes.map UInt8.toNat)
  | .text => Utf8.decode bytes

/-- What stands between the delimiters of a text, up to a limit. -/
def lines (units : Text) (delimiter : Code) : (limit : Option Nat) → List Text
  | some limit => (units.splitOn delimiter).take limit
  | none => units.splitOn delimiter

/-- As many of a list as a limit admits. -/
def upTo {α : Type} (limit : Option Nat) (list : List α) : List α :=
  match limit with
  | some limit => list.take limit
  | none => list

theorem map_upTo {α β : Type} (function : α → β) (limit : Option Nat) (list : List α) :
    (upTo limit list).map function = upTo limit (list.map function) := by
  cases limit with
  | none => rfl
  | some limit => exact List.map_take

theorem mem_of_mem_upTo {α : Type} {limit : Option Nat} {list : List α} {member : α}
    (isMember : member ∈ upTo limit list) : member ∈ list := by
  cases limit with
  | none => exact isMember
  | some limit => exact List.mem_of_mem_take isMember

theorem lines_eq_upTo (units : Text) (delimiter : Code) (limit : Option Nat) :
    lines units delimiter limit = upTo limit (units.splitOn delimiter) := by
  cases limit with
  | none => rfl
  | some limit => rfl

/-- The units of a segment. -/
def View.line (segment : View) : Text :=
  segment.source.unitsFrom segment.source.start

/-- A segment is at its end at once exactly if it has no units. -/
theorem View.atEnd_line {source : Source} (wellFormed : source.WellFormed) :
    View.atEnd ⟨source, []⟩ source.start =
      (.ok (View.line ⟨source, []⟩).head?.isNone, source.start) :=
  Scan.bind_of_ok wellFormed.admits_start.peek_eq

theorem Source.ofInput_units {mode : Mode} {bytes : List UInt8} {units : Text}
    (isUnits : mode.units? bytes = .ok units) :
    ∃ source, ofInput mode (.bytes bytes) = .ok source ∧ source.mode = mode ∧
      source.WellFormed ∧ source.unitsFrom source.start = units := by
  let source : Source := ⟨mode, bytes.toArray, 0, bytes.length⟩
  have accepted : ofInput mode (.bytes bytes) = .ok source := by
    cases mode with
    | bytes => rfl
    | text =>
        simp only [ofInput, ofUtf8]
        rw [show Utf8.decode bytes = .ok units from isUnits]
  refine ⟨source, accepted, rfl, wellFormed_ofInput (by rintro text ⟨⟩) accepted, ?_⟩
  have isSlice : Utf8.slice bytes.toArray 0 bytes.length = bytes := by
    simp [Utf8.slice_eq]
  cases mode with
  | bytes =>
      cases isUnits
      simp only [unitsFrom, source, isSlice]
  | text =>
      rw [Mode.units?] at isUnits
      simp only [unitsFrom, source, isSlice, isUnits]

/-- A buffer without units is refused at its first defect. -/
theorem Source.ofInput_defect {mode : Mode} {bytes : List UInt8} {defect : Utf8.Defect}
    (isDefect : mode.units? bytes = .error defect) :
    ofInput mode (.bytes bytes) = .error defect.fault := by
  cases mode with
  | bytes => cases isDefect
  | text =>
      simp only [ofInput, ofUtf8]
      rw [show Utf8.decode bytes = .error defect from isDefect]

theorem Literal.byte?_integer {unit : Nat} (small : unit < 0x100) :
    byte? (.integer unit) = .ok unit := by
  rw [byte?, if_pos (by omega)]
  rfl

/-! ## Sweeps -/

/-- A lone surrogate has no bytes to search for, so that a sweep ends before its first segment. -/
theorem View.sweep_surrogate {α : Type} {source : Source} {literal : Literal} {unit : Code}
    (isText : source.mode = .text) (coerced : source.mode.unit? literal = .ok unit)
    (isSurrogate : unit.isSurrogate = true) (visit : View → Scan α) (position : Nat) :
    (sweep ⟨source, []⟩ (.literal literal) visit ⟨position, false⟩).fault =
      some (.unencodable unit) := by
  have unencoded : source.mode.encodeUnit unit = .error (.unencodable unit) := by
    rw [isText]
    exact if_pos isSurrogate
  have refused : consumeUntil ⟨source, []⟩ (.literal literal) position =
      (.error (.unencodable unit), position) := by
    show leapUntil source (.literal literal) position = _
    rw [leapUntil, Scan.ofExcept_bind_of_ok coerced, Scan.ofExcept_bind_of_error unencoded]
  have notHandedOut : nextSegment ⟨source, []⟩ (.literal literal) ⟨position, false⟩ =
      (.error (.unencodable unit), ⟨position, false⟩) := by
    simp only [nextSegment, refused, Bool.false_eq_true, if_false]
  simp only [sweep, sweepLoop, notHandedOut]

namespace Job

variable {names : CharacterNames}

/-- The pattern of a unit that a delimiter stands for is a literal of that unit. -/
theorem exists_literal {mode : Mode} {raw : Literal} {unit : Code}
    (isUnit : Delimiter.unit names mode raw = .ok unit) (scalar : unit.IsScalar) :
    ∃ literal, unitPattern mode unit = .literal literal ∧ mode.unit? literal = .ok unit := by
  cases mode with
  | text => exact ⟨.text [unit], rfl, rfl⟩
  | bytes =>
      obtain ⟨literal, -, coerced⟩ := Delimiter.unit_eq_ok_iff.mp isUnit
      exact ⟨.integer unit, rfl, Literal.byte?_integer (Mode.holds_of_unit? coerced scalar)⟩

/-- A splitter over a source hands out the lines of its units, and a sweep collects them. -/
theorem sweep_lines {source : Source} {raw : Literal} {unit : Code}
    (wellFormed : source.WellFormed) (isUnit : Delimiter.unit names source.mode raw = .ok unit)
    (scalar : unit.IsScalar) :
    ∃ segments,
      View.sweep ⟨source, []⟩ (unitPattern source.mode unit) (fun segment => return segment)
        ⟨source.start, false⟩ = ⟨segments, none, ⟨source.stop, true⟩⟩ ∧
      segments.map View.line = (source.unitsFrom source.start).splitOn unit ∧
      ∀ segment ∈ segments, ∃ part : Source, part.WellFormed ∧ part.mode = source.mode ∧
        segment = ⟨part, []⟩ := by
  obtain ⟨literal, isPattern, coerced⟩ := exists_literal isUnit scalar
  obtain ⟨segments, handsOut, tiles⟩ :=
    View.exists_tiles (Pattern.test?_literal coerced) (Pattern.searchable_literal coerced scalar)
      wellFormed.admits_start
  refine ⟨segments, ?_, tiles.map_unitsFrom, ?_⟩
  · -- The function of this sweep refuses no segment.
    have visits : ∀ segment ∈ segments,
        ((pure segment : Scan View) segment.source.start).1 = .ok (id segment) := fun _ _ => rfl
    have all := handsOut.sweep_eq visits tiles.length_le
    rw [List.map_id] at all
    rw [isPattern]
    exact all
  · intro segment member
    obtain ⟨first, last, rfl, firstAdmits, lastAdmits, ordered, -⟩ := tiles.segment_of_mem member
    exact ⟨_, firstAdmits.wellFormed_narrowed lastAdmits ordered, rfl, rfl⟩

section Segments

variable {job : Job} {bytes : List UInt8} {units : Text} {unit : Code}
  (isPath : Path.check job.path = .ok ())

include isPath

theorem segments_of_defect {defect : Utf8.Defect}
    (isDefect : job.mode.units? bytes = .error defect) :
    job.segments names (.file bytes) = .error defect.fault := by
  simp only [segments, isPath, Job.bytes, Source.ofInput_defect isDefect, bind_ok, bind_error]

theorem segments_of_refused {fault : Fault} (isUnits : job.mode.units? bytes = .ok units)
    (refused : Delimiter.unit names job.mode job.delimiter = .error fault) :
    job.segments names (.file bytes) = .error fault := by
  obtain ⟨source, accepted, -⟩ := Source.ofInput_units isUnits
  simp only [segments, isPath, Job.bytes, accepted, refused, bind_ok, bind_error]

theorem segments_of_surrogate (isUnits : job.mode.units? bytes = .ok units)
    (isUnit : Delimiter.unit names job.mode job.delimiter = .ok unit) (isText : job.mode = .text)
    (isSurrogate : unit.isSurrogate = true) :
    job.segments names (.file bytes) = .error (.unencodable unit) := by
  obtain ⟨source, accepted, isMode, -⟩ := Source.ofInput_units isUnits
  have coerced : source.mode.unit? (.text [unit]) = .ok unit := by
    rw [isMode, isText]
    rfl
  have isPattern : unitPattern job.mode unit = .literal (.text [unit]) := by
    rw [isText]
    rfl
  simp only [segments, isPath, Job.bytes, accepted, isUnit, isPattern, bind_ok,
    View.sweep_surrogate (isMode.trans isText) coerced isSurrogate]
  rfl

/-- The segments are the lines, as far as the limit, which is looked at last, admits them. -/
theorem segments_eq_map (isUnits : job.mode.units? bytes = .ok units)
    (isUnit : Delimiter.unit names job.mode job.delimiter = .ok unit) (scalar : unit.IsScalar) :
    ∃ segments, job.segments names (.file bytes) = job.limit.map (upTo · segments) ∧
      segments.map View.line = units.splitOn unit ∧
      ∀ segment ∈ segments, ∃ source : Source, source.WellFormed ∧ source.mode = job.mode ∧
        segment = ⟨source, []⟩ := by
  obtain ⟨source, accepted, isMode, wellFormed, isAhead⟩ := Source.ofInput_units isUnits
  rw [← isMode] at isUnit
  obtain ⟨segments, swept, areLines, areSources⟩ := sweep_lines wellFormed isUnit scalar
  rw [isAhead] at areLines
  rw [isMode] at isUnit swept areSources
  refine ⟨segments, ?_, areLines, areSources⟩
  simp only [Job.segments, isPath, Job.bytes, accepted, isUnit, swept, bind_ok]
  cases job.limit with
  | error fault => rfl
  | ok limit =>
      cases limit with
      | none => rfl
      | some limit => rfl

/-- Under a limit that is a number the segments are the lines that it admits. -/
theorem exists_segments {limit : Option Nat} (isUnits : job.mode.units? bytes = .ok units)
    (isUnit : Delimiter.unit names job.mode job.delimiter = .ok unit) (scalar : unit.IsScalar)
    (isLimit : job.limit = .ok limit) :
    ∃ segments, job.segments names (.file bytes) = .ok segments ∧
      segments.map View.line = lines units unit limit ∧
      ∀ segment ∈ segments, ∃ source : Source, source.WellFormed ∧ source.mode = job.mode ∧
        segment = ⟨source, []⟩ := by
  obtain ⟨segments, found, areLines, areSources⟩ :=
    segments_eq_map isPath isUnits isUnit scalar
  rw [isLimit] at found
  refine ⟨upTo limit segments, found, ?_, ?_⟩
  · rw [map_upTo, areLines, lines_eq_upTo]
  · intro segment member
    exact areSources segment (mem_of_mem_upTo member)

/-- The segments of a job are the lines of its file, each a source of its own. -/
theorem segments_eq {limit : Option Nat} (isUnits : job.mode.units? bytes = .ok units)
    (isUnit : Delimiter.unit names job.mode job.delimiter = .ok unit) (scalar : unit.IsScalar)
    (isLimit : job.limit = .ok limit) :
    ∃ segments, job.segments names (.file bytes) = .ok segments ∧
      segments.map View.line = lines units unit limit ∧
      ∀ segment ∈ segments, ∃ source : Source, source.WellFormed ∧ segment = ⟨source, []⟩ := by
  obtain ⟨segments, found, areLines, areSources⟩ :=
    exists_segments isPath isUnits isUnit scalar isLimit
  refine ⟨segments, found, areLines, fun segment member => ?_⟩
  obtain ⟨source, wellFormed, -, isSegment⟩ := areSources segment member
  exact ⟨source, wellFormed, isSegment⟩

end Segments

/-- A job has segments only if its file has units, its delimiter stands for a scalar, and its
limit is a number if there is one. -/
theorem exists_of_segments {job : Job} {content : FileContent} {segments : List View}
    (isTyped : job.Typed) (found : job.segments names content = .ok segments) :
    ∃ bytes units unit limit, Path.check job.path = .ok () ∧ content = .file bytes ∧
      job.mode.units? bytes = .ok units ∧
      Delimiter.unit names job.mode job.delimiter = .ok unit ∧ unit.IsScalar ∧
      job.limit = .ok limit := by
  obtain ⟨_, isPath, later⟩ := exists_of_bind_eq_ok found
  cases content with
  | file bytes =>
      cases isUnits : job.mode.units? bytes with
      | error defect => cases found.symm.trans (segments_of_defect isPath isUnits)
      | ok units =>
          cases isUnit : Delimiter.unit names job.mode job.delimiter with
          | error fault => cases found.symm.trans (segments_of_refused isPath isUnits isUnit)
          | ok unit =>
              rcases unit_cases isTyped isUnit with scalar | ⟨isText, isSurrogate⟩
              · obtain ⟨all, isMap, -⟩ := segments_eq_map isPath isUnits isUnit scalar
                obtain ⟨limit, isLimit, -⟩ := exists_of_map_eq_ok (isMap.symm.trans found)
                exact ⟨bytes, units, unit, limit, isPath, rfl, isUnits, rfl, scalar, isLimit⟩
              · cases found.symm.trans
                  (segments_of_surrogate isPath isUnits isUnit isText isSurrogate)
  | missing | directory | notDirectory | nameTooLong =>
      simp only [Job.bytes, bind_error] at later
      cases later

/-! ## Reports -/

section Reports

variable {job : Job} {content : FileContent} {events : List Event} {fault : Fault}

theorem print_of_ok {segments : List View} (found : job.segments names content = .ok segments) :
    job.print names content = job.request.command.print job.request.summary segments := by
  rw [print, found]

theorem print_of_error (missing : job.segments names content = .error fault) :
    job.print names content = ([], .error fault) := by
  rw [print, missing]

theorem report_of_ok {output : String} (printed : job.print names content = (events, .ok output)) :
    job.report names content = ⟨output, events.filter (·.passes job.threshold), .finished 0⟩ := by
  rw [report, printed]

theorem report_of_failure (printed : job.print names content = (events, .error fault))
    (isFailure : fault.isParseFailure = true) :
    job.report names content =
      ⟨"", (events ++ [job.failure fault]).filter (·.passes job.threshold), .finished 1⟩ := by
  rw [report, printed]
  exact if_pos isFailure

theorem report_of_refusal (printed : job.print names content = (events, .error fault))
    (isRefusal : fault.isParseFailure = false) :
    job.report names content = ⟨"", events.filter (·.passes job.threshold), .refused fault⟩ := by
  rw [report, printed]
  simp only [isRefusal, Bool.false_eq_true, if_false]

end Reports

end Job

/-- A run whose arguments make a job is the report of that job. -/
theorem Surroundings.run_eq {around : Surroundings} {arguments : List Text} {job : Job}
    {content : FileContent} (prepared : Job.prepare around.settings arguments = .ok job)
    (isContent : around.files job.path = content) :
    around.run arguments = job.report around.names content := by
  simp only [run, prepared, isContent]

end RecordScan
