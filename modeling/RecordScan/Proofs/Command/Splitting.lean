import RecordScan.Proofs.Command.Lines
import RecordScan.Proofs.Scan.RoundTrip

/-!
Contract: the split command prints all bytes of its file.

Owns: the reading of hexadecimal digits (`Text.unhex?`), which undoes the writing of them;
the bytes that an item of a printed list stands for (`JsonValue.piece?`); that every
segment is printed as an item that stands for its own bytes (`Command.segmentDocument_eq`);
and the law that these pieces, joined by the delimiter, are the file.

A segment is printed as text if it decodes and in hexadecimal otherwise, so that the two
kinds of items have to be read back in two ways. Both give the bytes of the segment.
-/

namespace RecordScan

/-! ## Hexadecimal digits -/

namespace Text

/-- The value of a hexadecimal digit. -/
def unhexDigit? (code : Code) : Option Nat :=
  if 0x30 ≤ code ∧ code ≤ 0x39 then some (code - 0x30)
  else if 0x61 ≤ code ∧ code ≤ 0x66 then some (code - 0x57)
  else none

/-- The bytes that pairs of hexadecimal digits write. -/
def unhex? : Text → Option (List UInt8)
  | [] => some []
  | [_] => none
  | high :: low :: rest => do
      let high ← unhexDigit? high
      let low ← unhexDigit? low
      let bytes ← unhex? rest
      return (16 * high + low).toUInt8 :: bytes

theorem unhexDigit?_hexDigit : ∀ value < 16, unhexDigit? (hexDigit value).toNat = some value := by
  decide

/-- What is written in hexadecimal is read back. -/
theorem unhex?_hex (bytes : List UInt8) : unhex? (ofString (hex bytes)) = some bytes := by
  unfold ofString hex
  rw [String.toList_ofList]
  induction bytes with
  | nil => rfl
  | cons byte bytes inductionHypothesis =>
      have high := unhexDigit?_hexDigit (byte.toNat / 16 % 16) (Nat.mod_lt _ (by decide))
      have low := unhexDigit?_hexDigit (byte.toNat % 16) (Nat.mod_lt _ (by decide))
      have small := byte.toNat_lt
      have whole : 16 * (byte.toNat / 16 % 16) + byte.toNat % 16 = byte.toNat := by omega
      have digits : hexByte byte = [hexDigit (byte.toNat / 16 % 16), hexDigit (byte.toNat % 16)] :=
        rfl
      rw [List.flatMap_cons, digits]
      simp only [List.cons_append, List.nil_append, List.map_cons, unhex?, high, low,
        inductionHypothesis]
      show some ((16 * (byte.toNat / 16 % 16) + byte.toNat % 16).toUInt8 :: bytes) = _
      rw [whole]
      simp

end Text

/-! ## Pieces -/

/-- The bytes that an item of a printed list stands for: those of its text in UTF-8, or those that
it shows in hexadecimal. -/
def JsonValue.piece? : JsonValue → Option (List UInt8)
  | .string text => (Utf8.encode text).toOption
  | .object [(name, .string digits)] => if name = "hex" then Text.unhex? digits else none
  | _ => none

/-- The item of a segment with these bytes. -/
def JsonValue.ofPiece (bytes : List UInt8) : JsonValue :=
  match (Utf8.decode bytes).toOption with
  | some text => .string text
  | none => .object [("hex", .string (Text.ofString (Text.hex bytes)))]

/-- An item stands for the bytes it was made of. -/
theorem JsonValue.piece?_ofPiece (bytes : List UInt8) : (ofPiece bytes).piece? = some bytes := by
  unfold ofPiece
  cases decoded : Utf8.decode bytes with
  | ok text =>
      obtain ⟨scalars, isEncoded⟩ := Utf8.decode_eq_ok_iff.mp decoded
      have noSurrogate := (Text.isScalar_iff.mp scalars).2
      simp [piece?, Utf8.encode, noSurrogate, isEncoded, Except.toOption]
  | error defect =>
      show (if "hex" = "hex" then Text.unhex? (Text.ofString (Text.hex bytes)) else none) = _
      rw [if_pos rfl]
      exact Text.unhex?_hex bytes

theorem JsonValue.mapM_piece?_ofPiece (pieces : List (List UInt8)) :
    (pieces.map ofPiece).mapM piece? = some pieces := by
  induction pieces with
  | nil => rfl
  | cons piece pieces inductionHypothesis =>
      rw [List.map_cons, List.mapM_cons, piece?_ofPiece, inductionHypothesis]
      rfl

/-- The bytes of units in a buffer. -/
def Mode.encodeUnits (mode : Mode) (units : Text) : List UInt8 :=
  units.flatMap mode.unitBytes

theorem Mode.encodeUnits_of_units? {mode : Mode} {bytes : List UInt8} {units : Text}
    (isUnits : mode.units? bytes = .ok units) : mode.encodeUnits units = bytes := by
  cases mode with
  | bytes =>
      cases isUnits
      simp [encodeUnits, unitBytes, List.flatMap_map]
  | text => exact (Utf8.decode_eq_ok_iff.mp isUnits).2.symm

/-- Encoded units are joined as the units themselves are. -/
theorem Mode.encodeUnits_intercalate (mode : Mode) (separator : Text) (lines : List Text) :
    mode.encodeUnits (separator.intercalate lines) =
      (mode.encodeUnits separator).intercalate (lines.map mode.encodeUnits) := by
  induction lines with
  | nil => rfl
  | cons first rest inductionHypothesis =>
      cases rest with
      | nil => simp
      | cons second rest =>
          rw [List.map_cons] at inductionHypothesis
          rw [List.intercalate_cons_cons, List.map_cons, List.map_cons,
            List.intercalate_cons_cons, ← inductionHypothesis]
          simp [encodeUnits]

/-- The bytes between the delimiters of a file, joined by the delimiter, are the file. -/
theorem Mode.intercalate_pieces {mode : Mode} {bytes : List UInt8} {units : Text}
    (isUnits : mode.units? bytes = .ok units) (unit : Code) :
    (mode.unitBytes unit).intercalate ((units.splitOn unit).map mode.encodeUnits) = bytes := by
  have isUnit : mode.encodeUnits [unit] = mode.unitBytes unit := by simp [encodeUnits]
  rw [← isUnit, ← mode.encodeUnits_intercalate, List.intercalate_splitOn]
  exact encodeUnits_of_units? isUnits

/-- The bytes within the bounds of a source are those of its units. -/
theorem Source.WellFormed.slice_eq {source : Source} (wellFormed : source.WellFormed) :
    Utf8.slice source.bytes source.start source.stop =
      source.mode.encodeUnits (source.unitsFrom source.start) := by
  apply Eq.symm
  apply Mode.encodeUnits_of_units?
  cases isMode : source.mode with
  | bytes => simp only [Mode.units?, unitsFrom, isMode]
  | text => exact wellFormed.admits_start.decodeFrom_slice isMode 0

/-! ## Documents -/

namespace Command

theorem mapM_eq_ok {α β : Type} {list : List α} {function : α → Except Fault β} {answer : α → β}
    (answers : ∀ member ∈ list, function member = .ok (answer member)) :
    list.mapM function = .ok (list.map answer) := by
  induction list with
  | nil => rfl
  | cons first rest inductionHypothesis =>
      have later := inductionHypothesis fun member isMember =>
        answers member (List.mem_cons_of_mem first isMember)
      rw [List.mapM_cons, answers first (List.mem_cons_self ..), later]
      rfl

/-- Recording all of a source answers its text, if its bytes are UTF-8. -/
theorem restText?_whole {source : Source} (wellFormed : source.WellFormed) :
    View.restText? (View.recordFrom ⟨source, []⟩ source.start) source.start =
      (.ok (Utf8.decode (Utf8.slice source.bytes source.start source.stop)).toOption,
        source.stop) := by
  let recording := View.recordFrom ⟨source, []⟩ source.start
  have consumed : recording.consume source.start = (.ok (), source.stop) := rfl
  rw [View.restText?, Scan.bind_of_ok consumed]
  exact @View.recordedText?_eq recording source.start source.stop rfl wellFormed.start_le_stop

/-- A segment is printed as an item that stands for its bytes. -/
theorem segmentDocument_eq {source : Source} (wellFormed : source.WellFormed) :
    onSegment segmentDocument ⟨source, []⟩ =
      .ok (.ofPiece (source.mode.encodeUnits (View.line ⟨source, []⟩))) := by
  let recording := View.recordFrom ⟨source, []⟩ source.start
  have read := restText?_whole wellFormed
  have isSlice : Utf8.slice source.bytes source.start source.stop =
      source.mode.encodeUnits (View.line ⟨source, []⟩) := wellFormed.slice_eq
  rw [← isSlice]
  show ((recording.restText? >>= _) source.start).1 = _
  rw [Scan.bind_of_ok read]
  unfold JsonValue.ofPiece
  cases decoded : Utf8.decode (Utf8.slice source.bytes source.start source.stop) with
  | ok text => rfl
  | error defect =>
      have recorded := @View.recordedBytes_of_le recording source.start source.stop rfl
        wellFormed.start_le_stop
      exact congrArg Prod.fst (Scan.bind_of_ok recorded)

/-- What is printed of segments: an item for the line of each, or only how many there are. -/
theorem printSegments_eq (summary : Bool) {mode : Mode} {segments : List View}
    {items : List JsonValue}
    (areSources : ∀ segment ∈ segments, ∃ source : Source, source.WellFormed ∧
      source.mode = mode ∧ segment = ⟨source, []⟩)
    (areItems : (segments.map View.line).map (fun line => .ofPiece (mode.encodeUnits line)) =
      items) :
    printSegments summary segments =
      .ok (if summary then s!"segments={items.length}\n" else (JsonValue.array items).printed) := by
  have answers : ∀ segment ∈ segments, onSegment segmentDocument segment =
      .ok (.ofPiece (mode.encodeUnits segment.line)) := by
    intro segment member
    obtain ⟨source, wellFormed, rfl, rfl⟩ := areSources segment member
    exact segmentDocument_eq wellFormed
  rw [printSegments, ← areItems, List.length_map, List.length_map, List.map_map]
  cases summary with
  | true => rfl
  | false =>
      rw [mapM_eq_ok answers]
      rfl

end Command

/-! ## Runs -/

/-- **The split command is lossless.** Take a file that is UTF-8, or any file read by bytes, and a
delimiter that stands for one unit and no surrogate, by whatever names characters have. There is one
list of items, whose pieces are the encoded lines of the file and make up the file when the encoded
delimiter joins them. Every run on this file ends well, under any settings. It prints the items as
far as its limit admits them, all of them if there is none, or in a summary how many of them there
are. -/
theorem split_is_lossless {names : CharacterNames} {mode : Mode} {raw : Literal}
    {bytes : List UInt8} {units : Text} {unit : Code} (isUnits : mode.units? bytes = .ok units)
    (isUnit : Delimiter.unit names mode raw = .ok unit) (scalar : unit.IsScalar) :
    ∃ (items : List JsonValue) (pieces : List (List UInt8)) (encoded : List UInt8),
      items = pieces.map .ofPiece ∧ items.mapM JsonValue.piece? = some pieces ∧
      pieces = (units.splitOn unit).map mode.encodeUnits ∧
      mode.encodeUnit unit = .ok encoded ∧ encoded.intercalate pieces = bytes ∧
      ∀ (around : Surroundings) (arguments : List Text) (job : Job) (limit : Option Nat),
        around.names = names → Job.prepare around.settings arguments = .ok job →
        job.request.command = .split → job.mode = mode → job.delimiter = raw →
        job.limit = .ok limit → Path.check job.path = .ok () →
        around.files job.path = .file bytes →
        (around.run arguments).ending = .finished 0 ∧
        (around.run arguments).output =
          if job.request.summary then s!"segments={(upTo limit items).length}\n"
          else (JsonValue.array (upTo limit items)).printed := by
  let pieces := (units.splitOn unit).map mode.encodeUnits
  have holds : mode.Holds unit := by
    obtain ⟨literal, -, coerced⟩ := Delimiter.unit_eq_ok_iff.mp isUnit
    exact Mode.holds_of_unit? coerced scalar
  have isItems : pieces.map JsonValue.ofPiece =
      (units.splitOn unit).map fun line => .ofPiece (mode.encodeUnits line) := List.map_map
  refine ⟨pieces.map .ofPiece, pieces, mode.unitBytes unit, rfl,
    JsonValue.mapM_piece?_ofPiece pieces, rfl, Mode.encodeUnit_of_holds holds,
    Mode.intercalate_pieces isUnits unit, ?_⟩
  intro around arguments job limit isNames prepared isSplit isMode isRaw isLimit isPath isFile
  subst isNames isMode isRaw
  obtain ⟨segments, found, areLines, areSources⟩ :=
    Job.exists_segments isPath isUnits isUnit scalar isLimit
  have areItems : (segments.map View.line).map
      (fun line => JsonValue.ofPiece (job.mode.encodeUnits line)) =
        upTo limit (pieces.map .ofPiece) := by
    rw [areLines, lines_eq_upTo, map_upTo, isItems]
  have printed := Command.printSegments_eq job.request.summary areSources areItems
  have answered := Job.print_of_ok found
  rw [isSplit, Command.print, printed] at answered
  rw [Surroundings.run_eq prepared isFile, Job.report_of_ok answered]
  exact ⟨rfl, rfl⟩

/-- The file `a,\xFF,` read by bytes, at the character that has the name of the comma, has three
pieces. The second is no UTF-8 and is printed in hexadecimal, and the last is empty. -/
theorem split_is_lossless_hexadecimal :
    let bytes : List UInt8 := [0x61, 0x2C, 0xFF, 0x2C]
    let around : Surroundings :=
      ⟨.comma, .ok .default, fun path => if path = [0x66] then .file bytes else .missing⟩
    let arguments (more : List String) : List Text := List.map Text.ofString <|
      ["split", "f", "--delimiter=\\N\x7bCOMMA\x7d", "--bytes"] ++ more
    let items : List JsonValue :=
      [.string [0x61], .object [("hex", .string [0x66, 0x66])], .string []]
    items.mapM JsonValue.piece? = some [[0x61], [0xFF], []] ∧
      [0x2C].intercalate [[0x61], [0xFF], []] = bytes ∧
      (∀ more ∈ [[], ["--max-segments=2"], ["--max-segments=2", "--summary"]],
        (around.run (arguments more)).ending = .finished 0) ∧
      (around.run (arguments [])).output = (JsonValue.array items).printed ∧
      (around.run (arguments ["--max-segments=2"])).output =
        (JsonValue.array (items.take 2)).printed ∧
      (around.run (arguments ["--max-segments=2", "--summary"])).output = "segments=2\n" := by
  intro bytes around arguments items
  let raw : Text := Text.ofString "\\N\x7bCOMMA\x7d"
  have isUnits : Mode.bytes.units? bytes = .ok [0x61, 0x2C, 0xFF, 0x2C] := rfl
  have isUnit : Delimiter.unit around.names .bytes (.text raw) = .ok 0x2C :=
    ok_of_toOption (by decide +kernel)
  obtain ⟨_, pieces, encoded, rfl, areItems, rfl, -, -, runs⟩ :=
    split_is_lossless isUnits isUnit (by decide)
  have arePieces : ([0x61, 0x2C, 0xFF, 0x2C].splitOn 0x2C).map Mode.bytes.encodeUnits =
      [[0x61], [0xFF], []] := by decide
  have isAll : [[0x61], [0xFF], []].map JsonValue.ofPiece = items := by
    have first : (Utf8.decode [0x61]).toOption = some [0x61] := by decide +kernel
    have second : (Utf8.decode [0xFF]).toOption = none := by decide +kernel
    have last : (Utf8.decode []).toOption = some [] := by decide +kernel
    have digits : Text.ofString (Text.hex [0xFF]) = [0x66, 0x66] := by decide +kernel
    simp only [List.map_cons, List.map_nil, JsonValue.ofPiece, first, second, last, digits, items]
  rw [arePieces] at areItems
  rw [arePieces, isAll] at runs
  let job (limit : Option (Options.Given Nat)) (summary : Bool) : Job :=
    ⟨⟨.split, [0x66], some (.value raw), limit, true, summary⟩, .default, 30⟩
  have all := runs around (arguments []) (job none false) none rfl
    (ok_of_toOption (by decide +kernel)) rfl rfl rfl rfl rfl (by decide)
  have few := runs around (arguments ["--max-segments=2"]) (job (some (.value 2)) false) (some 2)
    rfl (ok_of_toOption (by decide +kernel)) rfl rfl rfl rfl rfl (by decide)
  have count := runs around (arguments ["--max-segments=2", "--summary"])
    (job (some (.value 2)) true) (some 2)
    rfl (ok_of_toOption (by decide +kernel)) rfl rfl rfl rfl rfl (by decide)
  refine ⟨isAll ▸ areItems, by decide, ?_, all.2, few.2, count.2.trans (by decide +kernel)⟩
  intro more member
  simp only [List.mem_cons, List.not_mem_nil, or_false] at member
  rcases member with rfl | rfl | rfl
  · exact all.1
  · exact few.1
  · exact count.1

end RecordScan
