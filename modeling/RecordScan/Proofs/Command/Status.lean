import RecordScan.Proofs.Command.Arguments
import RecordScan.Proofs.Command.Splitting
import RecordScan.Proofs.Grammar.ByteLines

/-!
Contract: the status of the split and the key/value command.

Owns: the reasons for which a job fails (`Job.Fails`), said of its file, its delimiter and
its lines; that they are exactly the reasons for the status one, with which nothing is
printed; and the one kind of delimiter with which split ends without a status.

The commands differ in one reason. Split prints a line that is no text in hexadecimal; the
key/value command fails at it, if it is among the lines that the limit admits.

A delimiter is looked at before it is used, and a lone surrogate passes. Where it is used,
its bytes are wanted, and their refusal is no failed parse.
-/

namespace RecordScan

namespace Command

/-- A list is mapped to the answers of all its members, or the first refusal ends it. -/
theorem mapM_cases {α β : Type} (function : α → Except Fault β) (list : List α) :
    (∃ values, list.mapM function = .ok values ∧
      ∀ member ∈ list, ∃ value, function member = .ok value) ∨
    ∃ member ∈ list, ∃ fault, function member = .error fault ∧
      list.mapM function = .error fault := by
  induction list with
  | nil => exact .inl ⟨[], rfl, nofun⟩
  | cons first rest inductionHypothesis =>
      rw [List.mapM_cons]
      cases answer : function first with
      | error fault => exact .inr ⟨first, List.mem_cons_self .., fault, answer, rfl⟩
      | ok value =>
          rcases inductionHypothesis with ⟨values, mapped, answered⟩ | ⟨member, isMember, fault,
            refused, ended⟩
          · rw [mapped]
            refine .inl ⟨value :: values, rfl, ?_⟩
            intro member isMember
            rcases List.mem_cons.mp isMember with rfl | isLater
            · exact ⟨value, answer⟩
            · exact answered member isLater
          · rw [ended]
            exact .inr ⟨member, List.mem_cons_of_mem first isMember, fault, refused, rfl⟩

/-- A segment has a record, or none if it is empty, exactly if its line is a text. -/
theorem recordOf_readsText {source : Source} (wellFormed : source.WellFormed) :
    View.ReadsText (source.mode.encodeUnits (View.line ⟨source, []⟩))
      (recordOf ⟨source, []⟩ source.start) := by
  rw [recordOf, Scan.bind_of_ok (View.atEnd_line wellFormed)]
  cases isLine : View.line ⟨source, []⟩ with
  | nil => exact .of_ok Utf8.isText_nil
  | cons unit rest =>
      have isSlice : Utf8.slice source.bytes source.start source.stop =
          source.mode.encodeUnits (unit :: rest) := isLine ▸ wellFormed.slice_eq
      rw [← isSlice]
      exact (View.keyValue_readsText wellFormed.admits_start).map some

/-- Records are printed if all lines are texts. Otherwise a line fails that is none. -/
theorem printRecords_cases {mode : Mode} {segments : List View}
    (areSources : ∀ segment ∈ segments, ∃ source : Source, source.WellFormed ∧
      source.mode = mode ∧ segment = ⟨source, []⟩) :
    (∃ output, printRecords segments = .ok output ∧
      ∀ segment ∈ segments, Utf8.IsText (mode.encodeUnits segment.line)) ∨
    ∃ fault, fault.isParseFailure = true ∧ printRecords segments = .error fault ∧
      ∃ segment ∈ segments, ¬ Utf8.IsText (mode.encodeUnits segment.line) := by
  have read (segment : View) (member : segment ∈ segments) :
      View.ReadsText (mode.encodeUnits segment.line)
        (recordOf segment segment.source.start) := by
    obtain ⟨source, wellFormed, rfl, rfl⟩ := areSources segment member
    exact recordOf_readsText wellFormed
  rcases mapM_cases (onSegment recordOf) segments with
    ⟨records, mapped, answered⟩ | ⟨segment, member, fault, refused, ended⟩
  · left
    refine ⟨_, congrArg (Except.map _) mapped, ?_⟩
    intro segment member
    obtain ⟨record, answer⟩ := answered segment member
    apply Classical.byContradiction
    intro notText
    obtain ⟨fault, -, refused⟩ := (read segment member).fails notText
    cases answer.symm.trans refused
  · right
    have notText : ¬ Utf8.IsText (mode.encodeUnits segment.line) := by
      intro isText
      obtain ⟨record, answer⟩ := (read segment member).answers isText
      cases answer.symm.trans refused
    obtain ⟨cause, isFailure, same⟩ := (read segment member).fails notText
    cases refused.symm.trans same
    exact ⟨fault, isFailure, congrArg (Except.map _) ended, segment, member, notText⟩

end Command

/-! ## Reasons to fail -/

/-- Why a job ends with nothing printed and the status one. -/
inductive Job.Fails (names : CharacterNames) (job : Job) (bytes : List UInt8)
    (limit : Option Nat) : Prop where
  /-- The file is read as a text and is none. -/
  | notText (isText : job.mode = .text) (invalid : ¬ Utf8.IsText bytes)
  | notUnescaped {cause : Fault} (refused : Delimiter.plain names job.delimiter = .error cause)
  /-- The delimiter can be unescaped, and is no unit. -/
  | notUnit {literal : Literal} {cause : Fault}
      (unescaped : Delimiter.plain names job.delimiter = .ok literal)
      (refused : job.mode.unit? literal = .error cause)
  /-- A line of bytes, which the key/value command has to read, is no text. -/
  | lineNotText {unit : Code} {line : Text} (isCommand : job.request.command = .keyValues)
      (isBytes : job.mode = .bytes)
      (isUnit : Delimiter.unit names .bytes job.delimiter = .ok unit)
      (isLine : line ∈ lines (bytes.map UInt8.toNat) unit limit) (notEmpty : line ≠ [])
      (invalid : ¬ Utf8.IsText (Mode.bytes.encodeUnits line))

namespace Job

variable {names : CharacterNames} {job : Job} {bytes : List UInt8} {limit : Option Nat}

theorem fails_of_defect {defect : Utf8.Defect} (isDefect : job.mode.units? bytes = .error defect) :
    job.Fails names bytes limit := by
  cases isMode : job.mode with
  | bytes =>
      rw [isMode] at isDefect
      cases isDefect
  | text =>
      rw [isMode] at isDefect
      refine .notText isMode fun isText => ?_
      obtain ⟨text, decoded⟩ := (Utf8.isText_iff 0 bytes).mp isText
      cases isDefect.symm.trans decoded

theorem fails_of_refused {fault : Fault}
    (refused : Delimiter.unit names job.mode job.delimiter = .error fault) :
    job.Fails names bytes limit := by
  cases isPlain : Delimiter.plain names job.delimiter with
  | error cause => exact .notUnescaped isPlain
  | ok literal =>
      cases coerced : job.mode.unit? literal with
      | error cause => exact .notUnit isPlain coerced
      | ok unit =>
          cases refused.symm.trans (Delimiter.unit_eq_ok_iff.mpr ⟨literal, isPlain, coerced⟩)

/-- Where file and delimiter can be read, only a line of bytes is left to fail. -/
theorem fails_iff_of_unit {units : Text} {unit : Code}
    (isUnits : job.mode.units? bytes = .ok units)
    (isUnit : Delimiter.unit names job.mode job.delimiter = .ok unit) :
    job.Fails names bytes limit ↔ job.request.command = .keyValues ∧ job.mode = .bytes ∧
      ∃ line ∈ lines units unit limit, ¬ Utf8.IsText (job.mode.encodeUnits line) := by
  obtain ⟨literal, isPlain, coerced⟩ := Delimiter.unit_eq_ok_iff.mp isUnit
  constructor
  · intro fails
    cases fails with
    | notText isText invalid =>
        rw [isText] at isUnits
        exact absurd ((Utf8.isText_iff 0 bytes).mpr ⟨units, isUnits⟩) invalid
    | notUnescaped refused => cases isPlain.symm.trans refused
    | notUnit unescaped refused =>
        cases isPlain.symm.trans unescaped
        cases coerced.symm.trans refused
    | lineNotText isCommand isBytes isSame isLine notEmpty invalid =>
        rw [isBytes] at isUnits isUnit ⊢
        cases isUnits
        cases isUnit.symm.trans isSame
        exact ⟨isCommand, rfl, _, isLine, invalid⟩
  · rintro ⟨isCommand, isBytes, line, isLine, invalid⟩
    rw [isBytes] at isUnits isUnit invalid
    cases isUnits
    refine .lineNotText isCommand isBytes isUnit isLine ?_ invalid
    rintro rfl
    exact invalid Utf8.isText_nil

/-- What the two commands answer on segments: key/value lines fail if one is no text. -/
theorem print_cases {content : FileContent} {segments : List View}
    (isCommand : job.request.command = .split ∨ job.request.command = .keyValues)
    (found : job.segments names content = .ok segments)
    (areSources : ∀ segment ∈ segments, ∃ source : Source, source.WellFormed ∧
      source.mode = job.mode ∧ segment = ⟨source, []⟩) :
    (∃ output, job.print names content = ([], .ok output) ∧ (job.request.command = .keyValues →
      ∀ segment ∈ segments, Utf8.IsText (job.mode.encodeUnits segment.line))) ∨
    (∃ fault, job.print names content = ([], .error fault) ∧ fault.isParseFailure = true ∧
      job.request.command = .keyValues ∧
      ∃ segment ∈ segments, ¬ Utf8.IsText (job.mode.encodeUnits segment.line)) := by
  have answered := print_of_ok found
  rcases isCommand with isSplit | isKeyValues
  · left
    rw [isSplit, Command.print, Command.printSegments_eq _ areSources rfl] at answered
    refine ⟨_, answered, fun isKeyValues => ?_⟩
    cases isSplit.symm.trans isKeyValues
  · rw [isKeyValues, Command.print] at answered
    rcases Command.printRecords_cases areSources with
      ⟨output, printed, areTexts⟩ | ⟨fault, isFailure, refused, failing⟩
    · rw [printed] at answered
      exact .inl ⟨output, answered, fun _ => areTexts⟩
    · rw [refused] at answered
      exact .inr ⟨fault, answered, isFailure, isKeyValues, failing⟩

/-- A job for split or key/value lines ends in one of two ways, by whether it has a reason to fail.
There is a third one if its delimiter is a lone surrogate. -/
theorem report_cases (isCommand : job.request.command = .split ∨ job.request.command = .keyValues)
    (isPath : Path.check job.path = .ok ()) (isLimit : job.limit = .ok limit)
    (isScalar : ∀ units unit, job.mode.units? bytes = .ok units →
      Delimiter.unit names job.mode job.delimiter = .ok unit → unit.IsScalar) :
    (job.Fails names bytes limit ∧ ∃ fault, job.report names (.file bytes) =
      ⟨"", [job.failure fault].filter (·.passes job.threshold), .finished 1⟩) ∨
    (¬ job.Fails names bytes limit ∧
      ∃ output, job.report names (.file bytes) = ⟨output, [], .finished 0⟩) := by
  cases isUnits : job.mode.units? bytes with
  | error defect =>
      have printed : job.print names (.file bytes) = ([], .error defect.fault) :=
        print_of_error (segments_of_defect isPath isUnits)
      exact .inl ⟨fails_of_defect isUnits, _, report_of_failure printed rfl⟩
  | ok units =>
      cases isUnit : Delimiter.unit names job.mode job.delimiter with
      | error fault =>
          obtain ⟨cause, rfl⟩ := Delimiter.unit_eq_error isUnit
          have printed := print_of_error (segments_of_refused isPath isUnits isUnit)
          exact .inl ⟨fails_of_refused isUnit, _, report_of_failure printed rfl⟩
      | ok unit =>
          have scalar := isScalar units unit isUnits isUnit
          obtain ⟨segments, found, areLines, areSources⟩ :=
            exists_segments isPath isUnits isUnit scalar isLimit
          rw [fails_iff_of_unit isUnits isUnit, ← areLines]
          rcases print_cases isCommand found areSources with
            ⟨output, printed, areTexts⟩ | ⟨fault, printed, isFailure, isKeyValues, failing⟩
          · refine .inr ⟨?_, _, report_of_ok printed⟩
            rintro ⟨isKeyValues, -, line, isLine, invalid⟩
            obtain ⟨segment, member, rfl⟩ := List.mem_map.mp isLine
            exact invalid (areTexts isKeyValues segment member)
          · obtain ⟨segment, member, notText⟩ := failing
            refine .inl ⟨⟨isKeyValues, ?_, _, List.mem_map_of_mem member, notText⟩, _,
              report_of_failure printed isFailure⟩
            -- In a text every line is one.
            obtain ⟨source, wellFormed, isMode, rfl⟩ := areSources segment member
            cases modeEq : job.mode with
            | bytes => rfl
            | text =>
                have isText := wellFormed.admits_start.isText_slice (isMode.trans modeEq)
                rw [wellFormed.slice_eq, isMode] at isText
                exact absurd isText notText

/-- On a text a delimiter that stands for a lone surrogate ends the job with no status. -/
theorem report_of_surrogate {unit : Code} (isPath : Path.check job.path = .ok ())
    (isText : job.mode = .text) (bytesText : Utf8.IsText bytes)
    (isUnit : Delimiter.unit names job.mode job.delimiter = .ok unit)
    (isSurrogate : unit.isSurrogate = true) :
    job.report names (.file bytes) = ⟨"", [], .refused (.unencodable unit)⟩ := by
  obtain ⟨units, decoded⟩ := (Utf8.isText_iff 0 bytes).mp bytesText
  have isUnits : job.mode.units? bytes = .ok units := by
    rw [isText]
    exact decoded
  have printed := print_of_error (segments_of_surrogate isPath isUnits isUnit isText isSurrogate)
  rw [report_of_refusal printed rfl]
  rfl

/-- Where no text is read with a lone surrogate for its delimiter, delimiters stand for scalars. -/
theorem isScalar_of_not_surrogate (isTyped : job.Typed)
    (noSurrogate : ∀ unit, job.mode = .text → Utf8.IsText bytes →
      Delimiter.unit names job.mode job.delimiter = .ok unit → unit.isSurrogate = false)
    (units : Text) (unit : Code) (isUnits : job.mode.units? bytes = .ok units)
    (isUnit : Delimiter.unit names job.mode job.delimiter = .ok unit) : unit.IsScalar := by
  rcases unit_cases isTyped isUnit with scalar | ⟨isText, isSurrogate⟩
  · exact scalar
  · rw [isText] at isUnits
    have bytesText := (Utf8.isText_iff 0 bytes).mpr ⟨units, isUnits⟩
    cases isSurrogate.symm.trans (noSurrogate unit isText bytesText isUnit)

end Job

/-! ## Runs -/

/-- **The status of split and of key/value lines.** Take any run of one of these commands on a file
that can be read, with any limit, any settings and any names of characters, where the delimiter does
not stand for a lone surrogate. Its status is one exactly if the job has a reason to fail, and then
nothing is printed; otherwise it is zero. -/
theorem status_is_one_iff_fails {around : Surroundings} {arguments : List Text} {job : Job}
    {bytes : List UInt8} {limit : Option Nat}
    (areCodes : ∀ argument ∈ arguments, argument.IsCodes)
    (prepared : Job.prepare around.settings arguments = .ok job)
    (isCommand : job.request.command = .split ∨ job.request.command = .keyValues)
    (isPath : Path.check job.path = .ok ()) (isFile : around.files job.path = .file bytes)
    (isLimit : job.limit = .ok limit)
    (noSurrogate : ∀ unit, Delimiter.plain around.names job.delimiter = .ok (.text [unit]) →
      unit.isSurrogate = false) :
    ((around.run arguments).ending = .finished 1 ↔ job.Fails around.names bytes limit) ∧
    ((around.run arguments).ending = .finished 0 ↔ ¬ job.Fails around.names bytes limit) ∧
    ((around.run arguments).ending = .finished 1 → (around.run arguments).output = "") := by
  rw [Surroundings.run_eq prepared isFile]
  have isTyped := Job.typed_of_prepare areCodes prepared
  have isScalar := @Job.isScalar_of_not_surrogate around.names job bytes isTyped
    fun unit _ _ isUnit => noSurrogate unit (Job.plain_of_unit isTyped isUnit).2
  rcases Job.report_cases isCommand isPath isLimit isScalar with
    ⟨fails, fault, report⟩ | ⟨passes, output, report⟩
  · rw [report]
    simp [fails]
  · rw [report]
    simp [passes]

/-- The second line of the file `a:b,\xFF`, read by bytes, is no text. The run fails if its limit
admits this line, and not before. The delimiter is given by the name of the comma. A surrogate
behind two more characters makes it fail in any case. -/
theorem status_is_one_iff_fails_at_limit :
    let bytes : List UInt8 := [0x61, 0x3A, 0x62, 0x2C, 0xFF]
    let around : Surroundings :=
      ⟨.comma, .ok .default, fun path => if path = [0x66] then .file bytes else .missing⟩
    let arguments (raw : Text) (limit : String) : List Text :=
      ["kv", "f", "--bytes"].map Text.ofString ++
        [Text.ofString "--delimiter=" ++ raw, Text.ofString ("--max-segments=" ++ limit)]
    let comma : Text := Text.ofString "\\N\x7bCOMMA\x7d"
    (around.run (arguments comma "1")).ending = .finished 0 ∧
      (around.run (arguments comma "2")).ending = .finished 1 ∧
      (around.run (arguments comma "2")).output = "" ∧
      (around.run (arguments [0x5C, 0x6E, 0xDCFF] "1")).ending = .finished 1 := by
  intro bytes around arguments comma
  let job (raw : Text) (limit : Nat) : Job :=
    ⟨⟨.keyValues, [0x66], some (.value raw), some (.value limit), true, false⟩, .default, 30⟩
  have isFile : around.files (Path.plain [0x66]) = .file bytes := by decide
  have status (raw : Text) (limit : Nat) (isRaw : raw.IsCodes)
      (prepared : Job.prepare around.settings (arguments raw (toString limit)) =
        .ok (job raw limit)) := by
    have areCodes : ∀ argument ∈ arguments raw (toString limit), argument.IsCodes := by
      simp only [arguments, List.map_cons, List.map_nil, List.cons_append, List.nil_append,
        List.forall_mem_cons, Text.isCodes_append, Text.isCodes_ofString, isRaw]
      simp
    exact @status_is_one_iff_fails around _ (job raw limit) bytes (some limit) areCodes prepared
      (.inr rfl) rfl isFile rfl
  have isUnit (limit : Nat) : Delimiter.unit around.names (job comma limit).mode
      (job comma limit).delimiter = .ok 0x2C :=
    ok_of_toOption (by
      show (Delimiter.unit .comma .bytes (.text comma)).toOption = some 0x2C
      decide +kernel)
  have noSurrogate (limit : Nat) (unit : Code)
      (isPlain : Delimiter.plain around.names (job comma limit).delimiter = .ok (.text [unit])) :
      unit.isSurrogate = false := by
    have isComma : Delimiter.plain .comma (.text comma) = .ok (.text [0x2C]) :=
      ok_of_toOption (by decide +kernel)
    cases isComma.symm.trans isPlain
    decide
  have isUnits (limit : Nat) :
      (job comma limit).mode.units? bytes = .ok [0x61, 0x3A, 0x62, 0x2C, 0xFF] := rfl
  have one := status comma 1 (Text.isCodes_ofString _) (ok_of_toOption (by decide +kernel))
    (noSurrogate 1)
  have two := status comma 2 (Text.isCodes_ofString _) (ok_of_toOption (by decide +kernel))
    (noSurrogate 2)
  have firstText : Utf8.IsText [0x61, 0x3A, 0x62] :=
    ⟨[0x61, 0x3A, 0x62], by simp [Code.isScalar_iff], by decide⟩
  have secondNot : ¬ Utf8.IsText [0xFF] := by
    rw [Utf8.isText_iff 0]
    rintro ⟨text, decoded⟩
    have refused : (Utf8.decodeFrom 0 [0xFF]).toOption = none := by decide +kernel
    rw [decoded] at refused
    cases refused
  have passes : ¬ (job comma 1).Fails around.names bytes (some 1) := by
    rw [Job.fails_iff_of_unit (isUnits 1) (isUnit 1)]
    rintro ⟨-, -, line, isLine, invalid⟩
    have only : lines [0x61, 0x3A, 0x62, 0x2C, 0xFF] 0x2C (some 1) = [[0x61, 0x3A, 0x62]] := by
      decide
    rw [only, List.mem_singleton] at isLine
    exact invalid (isLine ▸ firstText)
  have fails : (job comma 2).Fails around.names bytes (some 2) := by
    rw [Job.fails_iff_of_unit (isUnits 2) (isUnit 2)]
    exact ⟨rfl, rfl, [0xFF], by decide, secondNot⟩
  have failed := two.1.mpr fails
  have isRefused : Delimiter.plain around.names (.text [0x5C, 0x6E, 0xDCFF]) =
      .error (.escape (.surrogates 2 [0xDCFF])) := rfl
  have surrogate := status [0x5C, 0x6E, 0xDCFF] 1 (by decide) (ok_of_toOption (by decide +kernel))
    (fun unit isPlain => by cases isRefused.symm.trans isPlain)
  exact ⟨one.2.1.mpr passes, failed, two.2.2 failed, surrogate.1.mpr (.notUnescaped isRefused)⟩

/-! ## Any delimiter -/

/-- A text stands for the unit that is its one character. In bytes this has to be ASCII. -/
theorem Delimiter.unit_text_iff {names : CharacterNames} {mode : Mode} {raw : Text} {unit : Code} :
    Delimiter.unit names mode (.text raw) = .ok unit ↔
      Delimiter.unescape names raw = .ok [unit] ∧ (mode = .bytes → unit < 0x80) := by
  rw [unit_eq_ok_iff]
  constructor
  · rintro ⟨literal, isPlain, coerced⟩
    obtain ⟨text, unescaped, rfl⟩ := exists_of_map_eq_ok isPlain
    obtain ⟨rfl, ascii⟩ := Mode.unit?_text_cases coerced
    exact ⟨unescaped, ascii⟩
  · rintro ⟨unescaped, ascii⟩
    refine ⟨.text [unit], congrArg (Except.map _) unescaped, ?_⟩
    cases mode with
    | bytes => exact Mode.unit?_of_ascii .bytes (ascii rfl)
    | text => rfl

/-- The delimiter that is typed as two dashes is taken out. It would have stood for no unit. -/
theorem Job.unit_withDelimiter_iff {names : CharacterNames} {job : Job} {mode : Mode} {raw : Text}
    {unit : Code} :
    Delimiter.unit names mode (job.withDelimiter raw).delimiter = .ok unit ↔
      Delimiter.unescape names raw = .ok [unit] ∧ (mode = .bytes → unit < 0x80) := by
  by_cases isDashes : raw = Options.dashes
  · have twoDashes : Delimiter.unescape names raw = .ok Options.dashes := by
      rw [isDashes]
      rfl
    have isEmptied : (job.withDelimiter raw).delimiter = .emptyList := by
      simp only [delimiter, withDelimiter, Options.Given.typed, if_pos isDashes]
    rw [twoDashes, isEmptied]
    constructor
    · intro isUnit
      cases mode with
      | bytes => cases isUnit
      | text => cases isUnit
    · rintro ⟨same, -⟩
      cases same
  · have isText : (job.withDelimiter raw).delimiter = .text raw := by
      simp only [delimiter, withDelimiter, Options.Given.typed, if_neg isDashes]
    rw [isText]
    exact Delimiter.unit_text_iff

/-- **Only a lone surrogate keeps split from ending with a status.** Take any input that split
accepts, whose file can be read, and any text as the delimiter, surrogates and escapes by name
included. The run is refused if the file is read as a text, is one, and the delimiter stands for a
lone surrogate. Otherwise it ends well, or its failed parse is logged and its status is one; so it
does whenever the delimiter stands for no unit. -/
theorem split_ends_unless_surrogate {around : Surroundings} {path : Text} {job : Job}
    {bytes : List UInt8} {raw : Text} (isCodes : raw.IsCodes)
    (accepted : Job.prepare around.settings [Text.ofString "split", path] = .ok job)
    (isPath : Path.check job.path = .ok ()) (isFile : around.files job.path = .file bytes) :
    let report := around.run [Text.ofString "split", path, Text.ofString "--delimiter=" ++ raw]
    let Failed : Prop := ∃ message, report =
      ⟨"", [Event.parseFailed "split" path message].filter (·.passes job.threshold), .finished 1⟩
    let Surrogate (unit : Code) : Prop := job.mode = .text ∧ Utf8.IsText bytes ∧
      Delimiter.unescape around.names raw = .ok [unit] ∧ unit.isSurrogate = true
    (∀ unit, Surrogate unit → report = ⟨"", [], .refused (.unencodable unit)⟩) ∧
    ((∀ unit, ¬ Surrogate unit) → (∃ output, report = ⟨output, [], .finished 0⟩) ∨ Failed) ∧
    ((∀ unit, Delimiter.unescape around.names raw = .ok [unit] →
      job.mode = .bytes ∧ 0x80 ≤ unit) → Failed) := by
  intro report Failed Surrogate
  obtain ⟨isRequest, prepared⟩ := @Job.prepare_delimiter _ .split _ _ accepted raw
  let typed := job.withDelimiter raw
  have isTyped : typed.Typed := job.typed_withDelimiter isCodes
  have isReport : report = typed.report around.names (.file bytes) :=
    Surroundings.run_eq prepared isFile
  have isTypedPath : Path.check typed.path = .ok () := isPath
  have isLimit : typed.limit = .ok job.settings.maxSegments := by
    show Job.limit ⟨{ job.request with delimiter := _ }, _, _⟩ = _
    rw [isRequest]
    rfl
  have isFailure (fault : Fault) :
      typed.failure fault = .parseFailed "split" path fault.message := by
    show Event.parseFailed job.request.command.name job.request.input _ = _
    rw [isRequest]
    rfl
  have isSplit : typed.request.command = .split := congrArg Options.Request.command isRequest
  have ended (isScalar : ∀ units unit, typed.mode.units? bytes = .ok units →
      Delimiter.unit around.names typed.mode typed.delimiter = .ok unit → unit.IsScalar) :=
    Job.report_cases (.inl isSplit) isTypedPath isLimit isScalar
  simp only [← isReport, isFailure] at ended
  refine ⟨?_, ?_, ?_⟩
  · rintro unit ⟨isText, bytesText, unescaped, isSurrogate⟩
    have isUnit : Delimiter.unit around.names typed.mode typed.delimiter = .ok unit := by
      apply Job.unit_withDelimiter_iff.mpr
      refine ⟨unescaped, fun isBytes => ?_⟩
      cases isText.symm.trans isBytes
    rw [isReport]
    exact Job.report_of_surrogate isTypedPath isText bytesText isUnit isSurrogate
  · intro noSurrogate
    have isScalar := Job.isScalar_of_not_surrogate isTyped fun unit isText bytesText isUnit =>
      Bool.eq_false_iff.mpr fun isSurrogate => noSurrogate unit
        ⟨isText, bytesText, (Job.unit_withDelimiter_iff.mp isUnit).1, isSurrogate⟩
    rcases ended isScalar with ⟨-, fault, failed⟩ | ⟨-, output, finished⟩
    · exact .inr ⟨fault.message, failed⟩
    · exact .inl ⟨output, finished⟩
  · intro unusable
    have noUnit (unit : Code) :
        Delimiter.unit around.names typed.mode typed.delimiter ≠ .ok unit := by
      intro isUnit
      obtain ⟨unescaped, ascii⟩ := Job.unit_withDelimiter_iff.mp isUnit
      obtain ⟨isBytes, notAscii⟩ := unusable unit unescaped
      exact absurd (ascii isBytes) (Nat.not_lt.mpr notAscii)
    cases refused : Delimiter.unit around.names typed.mode typed.delimiter with
    | ok unit => exact absurd refused (noUnit unit)
    | error cause =>
        rcases ended fun _ unit _ isUnit => absurd isUnit (noUnit unit) with
          ⟨-, fault, failed⟩ | ⟨passes, -⟩
        · exact ⟨fault.message, failed⟩
        · exact absurd (Job.fails_of_refused refused) passes

/-- On the text `a,b` the name of the comma ends well. The delimiter `xy` is no unit and fails, and
so does a character with a surrogate behind it. A surrogate alone is refused, typed or escaped. -/
theorem split_ends_unless_surrogate_both_ways :
    let around : Surroundings := ⟨.comma, .ok .default, fun path =>
      if path = [0x66] then .file [0x61, 0x2C, 0x62] else .missing⟩
    let report (raw : Text) : Report :=
      around.run [Text.ofString "split", [0x66], Text.ofString "--delimiter=" ++ raw]
    let Failed (raw : Text) : Prop := ∃ message,
      report raw = ⟨"", [Event.parseFailed "split" [0x66] message], .finished 1⟩
    (∃ output, report (Text.ofString "\\N\x7bCOMMA\x7d") = ⟨output, [], .finished 0⟩) ∧
      Failed (Text.ofString "xy") ∧ Failed [0x61, 0xDCFF] ∧
      report [0xDCFF] = ⟨"", [], .refused (.unencodable 0xDCFF)⟩ ∧
      report (Text.ofString "\\ud800") = ⟨"", [], .refused (.unencodable 0xD800)⟩ := by
  intro around report Failed
  let job : Job := ⟨⟨.split, [0x66], none, none, false, false⟩, .default, 30⟩
  have accepted : Job.prepare around.settings [Text.ofString "split", [0x66]] = .ok job :=
    ok_of_toOption (by decide +kernel)
  have isFile : around.files job.path = .file [0x61, 0x2C, 0x62] := by decide
  have isText : Utf8.IsText [0x61, 0x2C, 0x62] :=
    ⟨[0x61, 0x2C, 0x62], by simp [Code.isScalar_iff], by decide⟩
  have ends {raw : Text} (isCodes : raw.IsCodes) :=
    split_ends_unless_surrogate isCodes accepted rfl isFile
  have comma : Delimiter.unescape .comma (Text.ofString "\\N\x7bCOMMA\x7d") = .ok [0x2C] :=
    ok_of_toOption (by decide +kernel)
  have pair : Delimiter.unescape .comma (Text.ofString "xy") = .ok [0x78, 0x79] :=
    ok_of_toOption (by decide +kernel)
  have escaped : Delimiter.unescape .comma (Text.ofString "\\ud800") = .ok [0xD800] :=
    ok_of_toOption (by decide +kernel)
  refine ⟨?_, ?_, ?_, ?_, ?_⟩
  · have answered : (∃ output, report (Text.ofString "\\N\x7bCOMMA\x7d") =
        ⟨output, [], .finished 0⟩) ∨ Failed (Text.ofString "\\N\x7bCOMMA\x7d") := by
      apply (ends (Text.isCodes_ofString _)).2.1
      rintro unit ⟨-, -, unescaped, isSurrogate⟩
      cases comma.symm.trans unescaped
      cases isSurrogate
    have isZero : (report (Text.ofString "\\N\x7bCOMMA\x7d")).ending = .finished 0 := by
      decide +kernel
    rcases answered with finished | ⟨message, failed⟩
    · exact finished
    · rw [failed] at isZero
      cases isZero
  · apply (ends (Text.isCodes_ofString "xy")).2.2
    intro unit isUnit
    cases pair.symm.trans isUnit
  · apply (ends (by decide : Text.IsCodes [0x61, 0xDCFF])).2.2
    intro unit isUnit
    cases isUnit
  · exact (ends (by decide)).1 0xDCFF ⟨by decide, isText, rfl, by decide⟩
  · exact (ends (Text.isCodes_ofString _)).1 0xD800 ⟨by decide, isText, escaped, by decide⟩

/-- The escape `\ud800` stands for a lone surrogate, which has no bytes to search for: the run on a
text ends with no status at all. -/
theorem surrogate_delimiter_is_refused :
    let around : Surroundings := ⟨.comma, .ok .default, fun path =>
      if path = Text.ofString "in.txt" then .file [0x61, 0x62] else .missing⟩
    (around.run (["split", "in.txt", "--delimiter=\\ud800"].map Text.ofString)).ending =
      .refused (.unencodable 0xD800) := by
  intro around
  let job : Job := ⟨⟨.split, Text.ofString "in.txt", some (.value (Text.ofString "\\ud800")), none,
    false, false⟩, .default, 30⟩
  have isText : Utf8.IsText [0x61, 0x62] :=
    ⟨[0x61, 0x62], by simp [Code.isScalar_iff], by decide⟩
  have isUnit : Delimiter.unit around.names job.mode job.delimiter = .ok 0xD800 :=
    ok_of_toOption (by decide +kernel)
  have prepared : Job.prepare around.settings
      (["split", "in.txt", "--delimiter=\\ud800"].map Text.ofString) = .ok job :=
    ok_of_toOption (by decide +kernel)
  have isFile : around.files job.path = .file [0x61, 0x62] := by decide
  rw [Surroundings.run_eq prepared isFile,
    Job.report_of_surrogate rfl (by decide) isText isUnit (by decide)]

end RecordScan
