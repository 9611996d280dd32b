import RecordScan.Proofs.Command.Numbers
import RecordScan.Proofs.Command.Tokens
import RecordScan.Proofs.Decimal.Overflow
import RecordScan.Proofs.Json.Writing

/-!
Contract: when the list of numbers is standard JSON.

Owns: that numbers which were read are the readings of their lines, because a line whose
integer has too many digits would have ended the run (`Command.reads_of_readings`); the
spellings that are read as infinite (`Number.Spelling.Overflows`); and that the printed
list is a JSON array exactly if no line is such a spelling.

The grammar bounds the digits of an integer, and not those of a number with a point. Such
a number is always read, and past the largest finite one it is printed by a name that JSON
does not have.
-/

namespace RecordScan

open Number (Spelling)

/-! ## Overflow -/

namespace Number

/-- A number with a point that is at least as large as what is rounded past the largest one. -/
def Spelling.Overflows (spelling : Spelling) : Prop :=
  ∃ fraction, spelling.fraction = some fraction ∧
    Binary64.ceiling * 10 ^ fraction.length ≤ Spelling.value (spelling.whole ++ fraction)

theorem Spelling.isFinite_real_iff (spelling : Spelling) (fraction : List (Fin 10)) :
    (spelling.real fraction).IsFinite ↔
      ¬ Binary64.ceiling * 10 ^ fraction.length ≤ value (spelling.whole ++ fraction) := by
  have isScaled : (Binary64.ceiling : ℚ) ≤
        value (spelling.whole ++ fraction) * 10 ^ (-(fraction.length : Int)) ↔
      Binary64.ceiling * 10 ^ fraction.length ≤ value (spelling.whole ++ fraction) := by
    rw [zpow_neg, zpow_natCast, ← div_eq_mul_inv, le_div_iff₀ (by positivity)]
    exact_mod_cast Iff.rfl
  rw [← isScaled, Spelling.real]
  rcases Binary64.ofDecimal_cases spelling.negative (value (spelling.whole ++ fraction))
    (-fraction.length) with ⟨reached, isInfinite⟩ | ⟨below, significand, power, isFinite⟩
  · rw [isInfinite]
    exact iff_of_false id (not_not.mpr reached)
  · rw [isFinite]
    exact iff_of_true trivial (not_le.mpr below)

/-- In the document of a number only its value may be infinite. -/
theorem isFinite_document_iff (number : Number) :
    number.document.IsFinite ↔ number.value.document.IsFinite := by
  constructor
  · intro isFinite
    cases isFinite with
    | object areFinite => exact areFinite ("value", number.value.document) (by simp)
  · intro isFinite
    refine .object (List.forall_mem_cons.mpr ⟨.string _, ?_⟩)
    exact List.forall_mem_singleton.mpr isFinite

/-- The document of a spelled number is finite unless the number overflows. -/
theorem Spelling.isFinite_document_iff (spelling : Spelling) :
    spelling.number.document.IsFinite ↔ ¬ spelling.Overflows := by
  rw [Number.isFinite_document_iff]
  cases isFraction : spelling.fraction with
  | none =>
      simp only [Spelling.number, isFraction]
      refine iff_of_true (.integer _) ?_
      rintro ⟨fraction, isSome, -⟩
      cases isFraction.symm.trans isSome
  | some fraction =>
      simp only [Spelling.number, isFraction, NumberValue.document]
      rw [JsonValue.isFinite_real_iff, isFinite_real_iff, Spelling.Overflows, isFraction]
      simp

/-- What is printed of a reading is finite unless the line spells a number that overflows. -/
theorem Spelling.Reads.isFinite_iff {line : Text} {reading : Option Number}
    (reads : Spelling.Reads line reading) :
    ((reading.map Number.document).getD .null).IsFinite ↔
      ∀ spelling : Spelling, spelling.text = line → ¬ spelling.Overflows := by
  constructor
  · rintro isFinite spelling rfl
    obtain rfl := reads.unique spelling.reads_text
    exact spelling.isFinite_document_iff.mp isFinite
  · intro fits
    cases reading with
    | none => exact .null
    | some number =>
        obtain ⟨spelling, isLine, rfl⟩ := (reads number).mp rfl
        exact spelling.isFinite_document_iff.mpr (fits spelling isLine)

end Number

/-! ## Readings -/

namespace Command

/-- If segments are read, then so are those behind the first one, and the first one is not
refused. -/
theorem readings_of_cons {index : Nat} {segment : View} {segments : List View}
    {numbers : List (Option Number)}
    (areRead : (readings index (segment :: segments)).numbers = .ok numbers) :
    (∃ later, (readings (index + 1) segments).numbers = .ok later) ∧
      ∀ fault, onSegment numberOf segment = .error fault → fault.isParseFailure = true := by
  have later_of_cons {events : List Event} {number : Option Number}
      (isCons : ((readings (index + 1) segments).cons events number).numbers = .ok numbers) :
      ∃ later, (readings (index + 1) segments).numbers = .ok later := by
    obtain ⟨later, isLater, -⟩ := exists_of_map_eq_ok isCons
    exact ⟨later, isLater⟩
  rw [readings] at areRead
  cases answer : onSegment numberOf segment with
  | ok reading =>
      rw [answer] at areRead
      refine ⟨?_, fun fault refused => by cases refused⟩
      cases reading with
      | none => exact ⟨numbers, areRead⟩
      | some number => exact later_of_cons areRead
  | error fault =>
      rw [answer] at areRead
      dsimp only at areRead
      split at areRead
      · next isFailure =>
          refine ⟨later_of_cons areRead, fun other same => ?_⟩
          cases same
          exact isFailure
      · cases areRead

/-- A line that begins with an integer of too many digits is refused. -/
theorem numberOf_tooLong {source : Source} {spelling : Spelling} (wellFormed : source.WellFormed)
    (longest : spelling.Longest (View.line ⟨source, []⟩)) (tooLong : spelling.TooLong) :
    onSegment numberOf ⟨source, []⟩ = .error (.integerDigits spelling.whole.length) := by
  have notEmpty : View.line ⟨source, []⟩ ≠ [] := by
    intro isEmpty
    exact spelling.text_ne_nil (List.prefix_nil.mp (isEmpty ▸ longest.1))
  rw [numberOf_eq wellFormed, if_neg notEmpty,
    View.wholeNumber_tooLong wellFormed.admits_start longest tooLong]
  rfl

/-- Among segments that were read, no line begins with an integer of too many digits. -/
theorem short_of_readings {index : Nat} {segments : List View} {numbers : List (Option Number)}
    (areSources : ∀ segment ∈ segments, ∃ source : Source,
      source.WellFormed ∧ segment = ⟨source, []⟩)
    (areRead : (readings index segments).numbers = .ok numbers) :
    ∀ segment ∈ segments, ∀ spelling : Spelling, spelling.Longest segment.line →
      ¬ spelling.TooLong := by
  induction segments generalizing index numbers with
  | nil => nofun
  | cons first segments inductionHypothesis =>
      obtain ⟨⟨later, areLater⟩, notRefused⟩ := readings_of_cons areRead
      rw [List.forall_mem_cons] at areSources ⊢
      refine ⟨fun spelling longest tooLong => ?_, inductionHypothesis areSources.2 areLater⟩
      obtain ⟨source, wellFormed, rfl⟩ := areSources.1
      cases notRefused _ (numberOf_tooLong wellFormed longest tooLong)

/-- **Numbers that were read are the readings of their lines**, of those that are not empty. -/
theorem reads_of_readings {index : Nat} {segments : List View} {numbers : List (Option Number)}
    (areSources : ∀ segment ∈ segments, ∃ source : Source,
      source.WellFormed ∧ segment = ⟨source, []⟩)
    (areRead : (readings index segments).numbers = .ok numbers) :
    List.Forall₂ Spelling.Reads ((segments.map View.line).filter (!·.isEmpty)) numbers := by
  obtain ⟨found, isFound, reads⟩ :=
    readings_eq index areSources (short_of_readings areSources areRead)
  obtain rfl : numbers = found := Except.ok.inj (areRead.symm.trans isFound)
  exact reads

end Command

/-! ## Runs -/

/-- A job that ends well has printed its output. -/
theorem Job.exists_of_finished {names : CharacterNames} {job : Job} {content : FileContent}
    (ended : (job.report names content).ending = .finished 0) :
    ∃ events, job.print names content = (events, .ok (job.report names content).output) := by
  cases printed : job.print names content with
  | mk events answer =>
      cases answer with
      | ok output => exact ⟨events, by rw [report_of_ok printed]⟩
      | error fault =>
          cases isFailure : fault.isParseFailure with
          | true =>
              rw [report_of_failure printed isFailure] at ended
              cases ended
          | false =>
              rw [report_of_refusal printed isFailure] at ended
              cases ended

/-- A job for the numbers command that ends well has read its segments, and prints the list of
their numbers unless a summary is asked for. -/
theorem Job.exists_numbers_of_finished {names : CharacterNames} {job : Job} {content : FileContent}
    (isNumbers : job.request.command = .numbers) (inFull : job.request.summary = false)
    (ended : (job.report names content).ending = .finished 0) :
    ∃ segments numbers, job.segments names content = .ok segments ∧
      (Command.readings 0 segments).numbers = .ok numbers ∧
      (job.report names content).output = Command.numberDocument numbers := by
  obtain ⟨events, printed⟩ := exists_of_finished ended
  cases found : job.segments names content with
  | error fault =>
      rw [print_of_error found] at printed
      cases (Prod.mk.inj printed).2
  | ok segments =>
      rw [print_of_ok found, isNumbers, inFull] at printed
      obtain ⟨numbers, areRead, isOutput⟩ := exists_of_map_eq_ok (Prod.mk.inj printed).2
      exact ⟨segments, numbers, rfl, areRead, isOutput.symm⟩

/-- A job ends well, with the list of the readings of its lines, if no line is longer than an
integer may be. -/
theorem Job.exists_entries {names : CharacterNames} {job : Job} {bytes : List UInt8} {units : Text}
    {unit : Code} {limit : Option Nat} (isPath : Path.check job.path = .ok ())
    (isUnits : job.mode.units? bytes = .ok units)
    (isUnit : Delimiter.unit names job.mode job.delimiter = .ok unit) (scalar : unit.IsScalar)
    (isLimit : job.limit = .ok limit)
    (few : ∀ line ∈ lines units unit limit, line.length ≤ Numeral.digitLimit) :
    ∃ entries : List (Option Number),
      List.Forall₂ Spelling.Reads ((lines units unit limit).filter (!·.isEmpty)) entries ∧
      ((job.numbers false).report names (.file bytes)).ending = .finished 0 ∧
      ((job.numbers false).report names (.file bytes)).output = Command.numberDocument entries := by
  obtain ⟨segments, areSegments, areLines, areSources⟩ :=
    segments_eq isPath isUnits isUnit scalar isLimit
  have short (segment : View) (member : segment ∈ segments) (spelling : Spelling)
      (longest : spelling.Longest segment.line) : ¬ spelling.TooLong :=
    longest.not_tooLong (few segment.line (areLines ▸ List.mem_map_of_mem member))
  obtain ⟨entries, areRead, reads⟩ := Command.readings_eq 0 areSources short
  rw [areLines] at reads
  exact ⟨entries, reads, report_numbers false areSegments areRead⟩

/-- Of printed readings each is finite exactly if no line spells a number that overflows. -/
theorem forall_isFinite_iff {lines : List Text} {entries : List (Option Number)}
    (areRead : List.Forall₂ Spelling.Reads lines entries) :
    (∀ item ∈ entries.map fun entry => (entry.map Number.document).getD .null, item.IsFinite) ↔
      ∀ spelling : Spelling, spelling.text ∈ lines → ¬ spelling.Overflows := by
  induction areRead with
  | nil => simp
  | @cons line entry lines entries reads _ inductionHypothesis =>
      rw [List.map_cons, List.forall_mem_cons, inductionHypothesis, reads.isFinite_iff]
      simp only [List.mem_cons, or_imp, forall_and]

theorem JsonValue.toList_printed (document : JsonValue) :
    document.printed.toList = document.print.toList ++ ['\n'] :=
  String.toList_append

/-- An array is printed as an array and a line break exactly if it is finite. -/
theorem JsonValue.isArray_printed_iff (items : List JsonValue) :
    (∃ text, (array items).printed.toList = text ++ ['\n'] ∧ Json.IsArray items.length text) ↔
      ∀ item ∈ items, item.IsFinite := by
  rw [← isArray_print_iff, toList_printed]
  constructor
  · rintro ⟨text, same, isArray⟩
    rwa [List.append_cancel_right same]
  · exact fun isArray => ⟨_, rfl, isArray⟩

/-- **The list of numbers is standard JSON unless a number overflows.** Take any run of the numbers
command without a summary that ends well, by whatever names characters have and under any settings.
Its output is the list of the readings of the lines that are not empty, in order, and a line break.
The list is a JSON array of as many elements as there are such lines, exactly if none of these lines
is a number with a point that is as large as what is rounded past the largest finite one. -/
theorem number_list_is_json_iff {around : Surroundings} {arguments : List Text} {job : Job}
    (areCodes : ∀ argument ∈ arguments, argument.IsCodes)
    (prepared : Job.prepare around.settings arguments = .ok job)
    (isNumbers : job.request.command = .numbers) (inFull : job.request.summary = false)
    (ended : (around.run arguments).ending = .finished 0) :
    ∃ bytes units unit limit entries,
      around.files job.path = .file bytes ∧ job.mode.units? bytes = .ok units ∧
      Delimiter.unit around.names job.mode job.delimiter = .ok unit ∧ job.limit = .ok limit ∧
      List.Forall₂ Spelling.Reads ((lines units unit limit).filter (!·.isEmpty)) entries ∧
      (around.run arguments).output =
        (JsonValue.array (entries.map fun entry =>
          (entry.map Number.document).getD .null)).printed ∧
      ((∃ text, (around.run arguments).output.toList = text ++ ['\n'] ∧
          Json.IsArray ((lines units unit limit).filter (!·.isEmpty)).length text) ↔
        ∀ spelling : Spelling, spelling.text ∈ lines units unit limit → ¬ spelling.Overflows) := by
  rw [Surroundings.run_eq prepared rfl] at ended ⊢
  obtain ⟨segments, entries, found, areRead, isOutput⟩ :=
    Job.exists_numbers_of_finished isNumbers inFull ended
  obtain ⟨bytes, units, unit, limit, isPath, isFile, isUnits, isUnit, scalar, isLimit⟩ :=
    Job.exists_of_segments (Job.typed_of_prepare areCodes prepared) found
  rw [isFile] at found isOutput ⊢
  obtain ⟨same, isFound, areLines, areSources⟩ :=
    Job.segments_eq isPath isUnits isUnit scalar isLimit
  obtain rfl : segments = same := Except.ok.inj (found.symm.trans isFound)
  have reads := Command.reads_of_readings areSources areRead
  rw [areLines] at reads
  refine ⟨bytes, units, unit, limit, entries, rfl, isUnits, isUnit, isLimit, reads, isOutput, ?_⟩
  have isMember (spelling : Spelling) :
      spelling.text ∈ (lines units unit limit).filter (!·.isEmpty) ↔
        spelling.text ∈ lines units unit limit := by
    simp [spelling.text_ne_nil]
  have isJson := JsonValue.isArray_printed_iff
    (entries.map fun entry => (entry.map Number.document).getD .null)
  rw [List.length_map, ← reads.length_eq, forall_isFinite_iff reads] at isJson
  simp only [isMember] at isJson
  rwa [isOutput]

/-- Of the file `1.5,,x`, split at the character that has the name of the comma, the list is JSON,
with an element for the number and one for the line that holds none. -/
theorem number_list_is_json_iff_of_half :
    let bytes : List UInt8 := [0x31, 0x2E, 0x35, 0x2C, 0x2C, 0x78]
    let around : Surroundings :=
      ⟨.comma, .ok .default, fun path => if path = [0x6E] then .file bytes else .missing⟩
    let report := around.run
      (["numbers", "n", "--delimiter=\\N\x7bCOMMA\x7d"].map Text.ofString)
    report.ending = .finished 0 ∧
      ∃ text, report.output.toList = text ++ ['\n'] ∧ Json.IsArray 2 text := by
  intro bytes around report
  let job : Job :=
    ⟨⟨.numbers, [0x6E], some (.value (Text.ofString "\\N\x7bCOMMA\x7d")), none, false, false⟩,
      .default, 30⟩
  let units : Text := [0x31, 0x2E, 0x35, 0x2C, 0x2C, 0x78]
  have prepared : Job.prepare around.settings
      (["numbers", "n", "--delimiter=\\N\x7bCOMMA\x7d"].map Text.ofString) = .ok job :=
    ok_of_toOption (by decide +kernel)
  have areCodes : ∀ argument ∈
      ["numbers", "n", "--delimiter=\\N\x7bCOMMA\x7d"].map Text.ofString, argument.IsCodes := by
    intro argument isArgument
    obtain ⟨string, -, rfl⟩ := List.mem_map.mp isArgument
    exact Text.isCodes_ofString string
  have isFile : around.files job.path = .file bytes := by decide
  have isUnits : job.mode.units? bytes = .ok units := ok_of_toOption (by decide +kernel)
  have isUnit : Delimiter.unit around.names job.mode job.delimiter = .ok 0x2C :=
    ok_of_toOption (by decide +kernel)
  have isLimit : job.limit = .ok none := rfl
  have areLines : lines units 0x2C none = [[0x31, 0x2E, 0x35], [], [0x78]] := by decide
  have few : ∀ line ∈ lines units 0x2C none, line.length ≤ Numeral.digitLimit := by
    rw [areLines]
    decide
  have ended : report.ending = .finished 0 := by
    obtain ⟨-, -, ended, -⟩ :=
      Job.exists_entries rfl isUnits isUnit (by decide) isLimit few
    rw [show report = job.report around.names (.file bytes) from
      Surroundings.run_eq prepared isFile]
    exact ended
  refine ⟨ended, ?_⟩
  obtain ⟨found, foundUnits, unit, limit, entries, sameFile, sameUnits, sameUnit, sameLimit, -, -,
    isJson⟩ := number_list_is_json_iff areCodes prepared rfl rfl ended
  cases isFile.symm.trans sameFile
  cases isUnits.symm.trans sameUnits
  cases isUnit.symm.trans sameUnit
  cases isLimit.symm.trans sameLimit
  apply isJson.mpr
  rw [areLines]
  intro spelling isLine overflows
  simp only [List.mem_cons, List.not_mem_nil, or_false] at isLine
  rcases isLine with isHalf | isEmpty | isLetter
  · let half : Spelling := ⟨false, [1], some [5], by decide⟩
    obtain ⟨-, rfl⟩ := half.ends_nil.eq_of_text isHalf
    obtain ⟨fraction, ⟨⟩, reached⟩ := overflows
    revert reached
    decide +kernel
  · exact spelling.text_ne_nil isEmpty
  · have isDigit := @Spelling.bounds_of_mem spelling 0x78 (by rw [isLetter]; decide)
    revert isDigit
    decide

/-- The digits of a number with a point are not bounded: of the file that holds one and 309 zeros
before a point, the number is read as infinite and printed by its name, which is not JSON. -/
theorem infinite_number_is_not_json :
    let bytes : List UInt8 := 0x31 :: (List.replicate 309 0x30 ++ [0x2E])
    let around : Surroundings := ⟨.comma, .ok .default, fun path =>
      if path = Text.ofString "in.txt" then .file bytes else .missing⟩
    let report := around.run (["numbers", "in.txt"].map Text.ofString)
    report.ending = .finished 0 ∧
      report.output =
        "[\n  \x7b\n    \"kind\": \"float\",\n    \"value\": Infinity\n  \x7d\n]\n" ∧
      ∀ text, report.output.toList = text ++ ['\n'] → ¬ Json.Value text := by
  intro bytes around report
  let job : Job :=
    ⟨⟨.numbers, Text.ofString "in.txt", none, none, false, false⟩, .default, 30⟩
  let units : Text := 0x31 :: (List.replicate 309 0x30 ++ [0x2E])
  have prepared : Job.prepare around.settings (["numbers", "in.txt"].map Text.ofString) = .ok job :=
    ok_of_toOption (by decide +kernel)
  have isPath : job.path = Text.ofString "in.txt" := by decide
  have isFile : around.files job.path = .file bytes := by
    simp only [around, isPath, if_true]
  have isUnits : job.mode.units? bytes = .ok units := ok_of_toOption (by decide +kernel)
  have isUnit : Delimiter.unit around.names job.mode job.delimiter = .ok 0x0A :=
    ok_of_toOption (by decide +kernel)
  have areLines : lines units 0x0A none = [units] := by decide +kernel
  have few : ∀ line ∈ lines units 0x0A none, line.length ≤ Numeral.digitLimit := by
    rw [areLines]
    decide +kernel
  obtain ⟨entries, reads, ended, isOutput⟩ :=
    Job.exists_entries rfl isUnits isUnit (by decide) (show job.limit = .ok none from rfl) few
  have isReport : report = (job.numbers false).report around.names (.file bytes) :=
    Surroundings.run_eq prepared isFile
  let spelling : Spelling := ⟨false, 1 :: List.replicate 309 0, some [], List.cons_ne_nil _ _⟩
  have isInfinite : spelling.number = ⟨.float, .real (.infinite false)⟩ := by
    decide +kernel
  have isOne : (lines units 0x0A none).filter (!·.isEmpty) = [spelling.text] := by
    decide +kernel
  have isEntry : entries = [some ⟨.float, .real (.infinite false)⟩] := by
    rw [isOne] at reads
    have unique : Relator.RightUnique Spelling.Reads := fun _ _ _ => Spelling.Reads.unique
    rw [← isInfinite]
    exact List.right_unique_forall₂' unique reads (.cons spelling.reads_text .nil)
  rw [isReport, isOutput, isEntry]
  refine ⟨ended, by decide +kernel, ?_⟩
  intro text same value
  rw [Command.numberDocument, JsonValue.toList_printed] at same
  rw [← List.append_cancel_right same] at value
  have isFinite := (JsonValue.value_write_iff _ 0).mp value
  have infinite : ¬ (Number.document ⟨.float, .real (.infinite false)⟩).IsFinite := by
    rw [Number.isFinite_document_iff]
    exact JsonValue.isFinite_real_iff.mp
  cases isFinite with
  | array areFinite => exact infinite (areFinite _ (List.mem_cons_self ..))

end RecordScan
