import RecordScan.Proofs.Grammar.Keeping
import RecordScan.Proofs.Scan.Segments

/-!
Contract: what key/value lines say.

Owns: the key and the value of a line of text (`Text.keyAndValue`), which are what
reading the line answers (`View.keyValue_eq`); the records of all lines of a text
(`View.keyValues_eq`), one for each segment of its tiling; the round trip: lines
written from keys and values are read as these keys and values; and, for lines that
nobody wrote so, that the records lose nothing of them but colons and leading blanks.

Does not own: lines of bytes that need not be UTF-8
(`RecordScan.Proofs.Grammar.ByteLines`).
-/

namespace RecordScan

/-! ## The text of a line -/

namespace Text

/-- The key of a line ends at its first colon, and the value lacks its leading blanks. A line
without a colon is all value. -/
def keyAndValue (line : Text) : Text × Text :=
  match line.dropWhile (· != ':'.toNat) with
  | [] => ([], stripLeft line)
  | _ :: value => (line.takeWhile (· != ':'.toNat), stripLeft value)

/-- A line in its written form: a colon and a blank between the key and the value. -/
def line (key value : Text) : Text :=
  key ++ ':'.toNat :: ' '.toNat :: value

/-- A value that has no blank in front, so that there is nothing to strip. -/
def IsStripped (value : Text) : Prop :=
  ∀ first ∈ value.head?, isBlank first = false

theorem IsStripped.stripLeft_eq {value : Text} (stripped : value.IsStripped) :
    stripLeft value = value := by
  cases value with
  | nil => rfl
  | cons first rest =>
      have visible : isBlank first = false := stripped first rfl
      simp [stripLeft, visible]

theorem isScalar_line {key value : Text} (keyScalars : key.IsScalar)
    (valueScalars : value.IsScalar) : (line key value).IsScalar := by
  have colon : Code.IsScalar ':'.toNat := by decide
  have blank : Code.IsScalar ' '.toNat := by decide
  simp only [line, isScalar_append, isScalar_cons]
  exact ⟨keyScalars, colon, blank, valueScalars⟩

/-- A written line has the key and the value it was written from. -/
theorem keyAndValue_line {key value : Text} (noColon : ':'.toNat ∉ key)
    (stripped : value.IsStripped) : (line key value).keyAndValue = (key, value) := by
  have passes : ∀ code ∈ key, (code != ':'.toNat) = true := by
    intro code member
    simp only [bne_iff_ne]
    rintro rfl
    exact noColon member
  have ahead : (line key value).dropWhile (· != ':'.toNat) = ':'.toNat :: ' '.toNat :: value := by
    rw [line, List.dropWhile_append_of_pos passes]
    simp
  have before : (line key value).takeWhile (· != ':'.toNat) = key := by
    rw [line, List.takeWhile_append_of_pos passes]
    simp
  have bare : stripLeft (' '.toNat :: value) = value := by
    have blank : isBlank ' '.toNat = true := by decide
    rw [stripLeft, List.dropWhile_cons_of_pos blank]
    exact stripped.stripLeft_eq
  simp only [keyAndValue, ahead, before, bare]

/-- A line is a key, a colon, and a value behind all its leading blanks; or it has no colon, and
is a value behind its leading blanks. -/
def DividedInto (line key value : Text) : Prop :=
  ∃ blanks : Text, (∀ code ∈ blanks, isBlank code = true) ∧ value.IsStripped ∧
    (':'.toNat ∉ key ∧ line = key ++ ':'.toNat :: (blanks ++ value) ∨
      ':'.toNat ∉ line ∧ key = [] ∧ line = blanks ++ value)

/-- Stripping takes off blanks only, and all that are in front. -/
theorem exists_blanks (text : Text) :
    ∃ blanks : Text, (∀ code ∈ blanks, isBlank code = true) ∧ (stripLeft text).IsStripped ∧
      text = blanks ++ stripLeft text := by
  refine ⟨text.takeWhile isBlank, fun code member => List.mem_takeWhile_imp member, ?_,
    List.takeWhile_append_dropWhile.symm⟩
  intro first isFirst
  have stopped := List.head?_dropWhile_not isBlank text
  rw [stripLeft] at isFirst
  rw [Option.mem_def.mp isFirst] at stopped
  simpa using stopped

/-- The key and the value of a line leave out only its first colon and blanks. -/
theorem dividedInto_keyAndValue (line : Text) :
    line.DividedInto line.keyAndValue.1 line.keyAndValue.2 := by
  unfold keyAndValue
  cases ahead : line.dropWhile (· != ':'.toNat) with
  | nil =>
      obtain ⟨blanks, areBlanks, stripped, isLine⟩ := exists_blanks line
      refine ⟨blanks, areBlanks, stripped, .inr ⟨fun member => ?_, rfl, isLine⟩⟩
      have passes := List.dropWhile_eq_nil_iff.mp ahead _ member
      simp at passes
  | cons first rest =>
      obtain ⟨blanks, areBlanks, stripped, isRest⟩ := exists_blanks rest
      have isColon : first = ':'.toNat := by
        have stopped := List.head?_dropWhile_not (· != ':'.toNat) line
        rw [ahead] at stopped
        simpa using stopped
      subst isColon
      refine ⟨blanks, areBlanks, stripped, .inl ⟨fun member => ?_, ?_⟩⟩
      · have passes := List.mem_takeWhile_imp member
        simp at passes
      · dsimp only
        rw [← isRest, ← ahead]
        exact List.takeWhile_append_dropWhile.symm

/-- The code points of joined texts are those of the texts and of the separator. -/
theorem isScalar_intercalate {separator : Text} (scalar : separator.IsScalar)
    {lines : List Text} (scalars : ∀ line ∈ lines, line.IsScalar) :
    IsScalar (separator.intercalate lines) := by
  induction lines with
  | nil => simp
  | cons first rest inductionHypothesis =>
      have firstScalars := scalars first (List.mem_cons_self ..)
      have joined := inductionHypothesis fun line member =>
        scalars line (List.mem_cons_of_mem first member)
      cases rest with
      | nil => simpa using firstScalars
      | cons second rest =>
          rw [List.intercalate_cons_cons]
          simp [firstScalars, scalar, joined]

end Text

/-! ## One line -/

/-- One ASCII character stands for the same unit in both modes. -/
theorem Mode.unit?_of_ascii (mode : Mode) {code : Code} (ascii : code < 0x80) :
    mode.unit? (.text [code]) = .ok code := by
  cases mode with
  | bytes => exact if_pos ascii
  | text => rfl

theorem Pattern.test?_literal {mode : Mode} {literal : Literal} {unit : Code}
    (coerced : mode.unit? literal = .ok unit) :
    (Pattern.literal literal).test? mode = .ok (· == unit) := by
  simp [Pattern.test?, coerced, Except.map]

theorem Pattern.searchable_literal {mode : Mode} {literal : Literal} {unit : Code}
    (coerced : mode.unit? literal = .ok unit) (scalar : unit.IsScalar) :
    (Pattern.literal literal).Searchable mode := by
  rintro _ other ⟨rfl⟩ isUnit
  cases coerced.symm.trans isUnit
  exact scalar

/-- The record of what stands ahead of a position; its span is that of the whole source. -/
def Source.lineFrom (source : Source) (position : Nat) : KeyValue :=
  let (key, value) := Text.keyAndValue (source.unitsFrom position)
  ⟨key, value, ⟨source.start, source.stop⟩⟩

namespace View

variable {source : Source} {position : Nat}

theorem character_test? (char : Char) (mode : Mode) (ascii : char.toNat < 0x80) :
    (character char).test? mode = .ok (· == char.toNat) :=
  Pattern.test?_literal (mode.unit?_of_ascii ascii)

theorem character_searchable (char : Char) (mode : Mode) (ascii : char.toNat < 0x80) :
    (character char).Searchable mode :=
  Pattern.searchable_literal (mode.unit?_of_ascii ascii) (Code.isScalar_of_ascii ascii)

/-- The search for the end of a key stops at the first colon, or at the end of the line. -/
theorem consumeUntil_colon (admits : source.Admits position) :
    ∃ last, source.Admits last ∧ position ≤ last ∧
      source.unitsFrom last = (source.unitsFrom position).dropWhile (· != ':'.toNat) ∧
      consumeUntil (recordFrom ⟨source, []⟩ position) (character ':') position =
        (.ok (), last) := by
  let recording := recordFrom ⟨source, []⟩ position
  have ascii : ':'.toNat < 0x80 := by decide
  have placed : recording.Placed position := by
    refine ⟨admits, fun start member => ?_⟩
    cases List.mem_singleton.mp member
    exact Nat.le_refl position
  obtain ⟨last, consumed, lastPlaced, forward, ahead⟩ :=
    consumeUntil_leaves (character_test? ':' recording.mode ascii)
      (character_searchable ':' recording.mode ascii) placed
  exact ⟨last, lastPlaced.1, forward, ahead, consumed⟩

/-- The key of a line of text is recorded up to its first colon, or to the end of the line. -/
private theorem key_eq (admits : source.Admits position) (isText : source.mode = .text) :
    ∃ last, source.Admits last ∧
      source.unitsFrom last = (source.unitsFrom position).dropWhile (· != ':'.toNat) ∧
      consumeUntil (recordFrom ⟨source, []⟩ position) (character ':') position = (.ok (), last) ∧
      recordedText (recordFrom ⟨source, []⟩ position) last =
        (.ok ((source.unitsFrom position).takeWhile (· != ':'.toNat)), last) := by
  let recording := recordFrom ⟨source, []⟩ position
  obtain ⟨last, lastAdmits, forward, ahead, consumed⟩ := consumeUntil_colon admits
  refine ⟨last, lastAdmits, ahead, consumed, ?_⟩
  have key := admits.unitsFrom_narrowed_of_dropWhile lastAdmits forward ahead
  rw [← key]
  exact @recordedText_of_le recording position last isText admits lastAdmits rfl forward

/-- Reading the rest of a line of text answers its record. -/
theorem keyValue_eq (admits : source.Admits position) (isText : source.mode = .text) :
    keyValue ⟨source, []⟩ position = (.ok (source.lineFrom position), source.stop) := by
  have span : Span.checked source.start source.stop = .ok ⟨source.start, source.stop⟩ :=
    if_neg (Nat.not_lt.mpr admits.start_le_stop)
  obtain ⟨last, lastAdmits, ahead, consumed, key⟩ := key_eq admits isText
  obtain ⟨moved, taken, movedAdmits, -, movedAhead⟩ := source.reads.advance_leaves lastAdmits
  have advanced : advance ⟨source, []⟩ last = _ := taken
  rw [keyValue, Scan.ofExcept_bind_of_ok span]
  show (consumeUntil (recordFrom ⟨source, []⟩ position) (character ':') >>= _) position = _
  rw [Scan.bind_of_ok consumed, Scan.bind_of_ok key, Scan.bind_of_ok advanced]
  unfold Source.lineFrom Text.keyAndValue
  rw [← ahead]
  cases rest : source.unitsFrom last with
  | nil =>
      rw [rest] at ahead movedAhead
      have isEnd : moved = source.stop :=
        movedAdmits.eq_of_unitsFrom_eq admits.admits_stop
          (movedAhead.trans source.unitsFrom_stop.symm)
      have allKey : (source.unitsFrom position).takeWhile (· != ':'.toNat) =
          source.unitsFrom position := by
        rw [List.takeWhile_eq_self_iff, ← List.dropWhile_eq_nil_iff]
        exact ahead.symm
      rw [allKey, isEnd]
      rfl
  | cons colon value =>
      rw [rest] at movedAhead
      have recorded := restText_ahead movedAdmits isText
      rw [movedAhead] at recorded
      show (restText (recordFrom ⟨source, []⟩ moved) >>= _) moved = _
      rw [Scan.bind_of_ok recorded]
      rfl

/-! ## All lines -/

/-- The lines of a text are read as the segments of its tiling, one record for each. -/
theorem keyValues_eq {delimiter : Pattern} {test : Code → Bool}
    (matched : delimiter.test? source.mode = .ok test)
    (searchable : delimiter.Searchable source.mode) (admits : source.Admits position)
    (isText : source.mode = .text) :
    ∃ segments, HandsOut ⟨source, []⟩ delimiter ⟨position, false⟩ segments ⟨source.stop, true⟩ ∧
      source.Tiles test position segments ∧
      keyValues ⟨source, []⟩ delimiter position =
        (.ok (segments.map fun segment => segment.source.lineFrom segment.source.start),
          source.stop) := by
  obtain ⟨segments, handsOut, tiles⟩ := exists_tiles matched searchable admits
  refine ⟨segments, handsOut, tiles, ?_⟩
  have visits : ∀ segment ∈ segments, (keyValue segment segment.source.start).1 =
      .ok (segment.source.lineFrom segment.source.start) := by
    intro segment member
    obtain ⟨first, last, rfl, firstAdmits, lastAdmits, ordered, -⟩ := tiles.segment_of_mem member
    have wellFormed := firstAdmits.wellFormed_narrowed lastAdmits ordered
    exact congrArg Prod.fst (keyValue_eq wellFormed.admits_start isText)
  have swept := handsOut.sweep_eq visits tiles.length_le
  have passed : delimiter.test? (mode ⟨source, []⟩) = .ok test := matched
  simp only [keyValues, passed, swept]

/-! ## The round trip -/

/-- **Key/value lines are read as they were written.** Take any delimiter but the colon and the
blank, and any keys and values without it, where no key has a colon and no value a blank in front.
Their lines, joined by the delimiter, are a text, and reading all of it answers exactly these keys
and values in order. -/
theorem written_lines_read_back (delimiter : Code) (pairs : List (Text × Text))
    (scalar : delimiter.IsScalar) (notColon : delimiter ≠ ':'.toNat)
    (notBlank : delimiter ≠ ' '.toNat) (nonempty : pairs ≠ [])
    (keys : ∀ pair ∈ pairs, pair.1.IsScalar ∧ ':'.toNat ∉ pair.1 ∧ delimiter ∉ pair.1)
    (values : ∀ pair ∈ pairs, pair.2.IsScalar ∧ delimiter ∉ pair.2 ∧ pair.2.IsStripped) :
    ∃ source lines,
      Source.ofText ([delimiter].intercalate (pairs.map fun pair => Text.line pair.1 pair.2)) =
        .ok source ∧
      keyValues ⟨source, []⟩ (.literal (.text [delimiter])) source.start =
        (.ok lines, source.stop) ∧
      lines.map (fun line => (line.key, line.value)) = pairs := by
  let written : List Text := pairs.map fun pair => Text.line pair.1 pair.2
  have scalars : Text.IsScalar ([delimiter].intercalate written) := by
    apply Text.isScalar_intercalate (by simpa using scalar)
    intro line member
    obtain ⟨pair, isPair, rfl⟩ := List.mem_map.mp member
    exact Text.isScalar_line (keys pair isPair).1 (values pair isPair).1
  have absent : ∀ line ∈ written, delimiter ∉ line := by
    intro line member
    obtain ⟨pair, isPair, rfl⟩ := List.mem_map.mp member
    simp only [Text.line, List.mem_append, List.mem_cons, not_or]
    exact ⟨(keys pair isPair).2.2, notColon, notBlank, (values pair isPair).2.1⟩
  have accepted := Source.ofText_eq scalars
  have codePoints : ∀ code ∈ [delimiter].intercalate written, code ≤ Code.greatest :=
    fun code member => (scalars code member).1
  obtain ⟨isText, units⟩ := Source.unitsFrom_ofText codePoints accepted
  have wellFormed := @Source.wellFormed_ofInput .text (.text _) _
    (by rintro text ⟨rfl⟩; exact codePoints) accepted
  have searchable : (Pattern.literal (.text [delimiter])).Searchable .text :=
    Pattern.searchable_literal rfl scalar
  obtain ⟨segments, -, tiles, read⟩ :=
    @keyValues_eq _ _ _ (· == delimiter) rfl searchable wellFormed.admits_start isText
  refine ⟨_, _, accepted, read, ?_⟩
  have split : (segments.map fun segment => segment.source.unitsFrom segment.source.start) =
      written := by
    rw [tiles.map_unitsFrom, units, ← List.splitOn_eq_splitOnP]
    exact List.splitOn_intercalate delimiter absent (by simpa [written] using nonempty)
  calc
    (segments.map fun segment => segment.source.lineFrom segment.source.start).map
        (fun line => (line.key, line.value)) =
      (segments.map fun segment =>
        segment.source.unitsFrom segment.source.start).map Text.keyAndValue := by
          rw [List.map_map, List.map_map]
          rfl
    _ = pairs.map fun pair => (Text.line pair.1 pair.2).keyAndValue := by
          rw [split, List.map_map]
          rfl
    _ = pairs.map id := by
          apply List.map_congr_left
          intro pair isPair
          exact Text.keyAndValue_line (keys pair isPair).2.1 (values pair isPair).2.2
    _ = pairs := List.map_id pairs

/-- Lines separated by `é`, which takes two bytes: a value with a colon, an empty key with an empty
value, and a key that is a blank. -/
theorem written_lines_read_back_two_byte_delimiter :
    let pairs : List (Text × Text) := [([0x6B], [0x61, 0x3A, 0x62]), ([], []), ([0x20], [0x63])]
    ∃ source lines,
      Source.ofText [0x6B, 0x3A, 0x20, 0x61, 0x3A, 0x62, 0xE9, 0x3A, 0x20, 0xE9,
        0x20, 0x3A, 0x20, 0x63] = .ok source ∧
      keyValues ⟨source, []⟩ (.literal (.text [0xE9])) source.start = (.ok lines, source.stop) ∧
      lines.map (fun line => (line.key, line.value)) = pairs := by
  intro pairs
  have keys : ∀ pair ∈ pairs, pair.1.IsScalar ∧ ':'.toNat ∉ pair.1 ∧ 0xE9 ∉ pair.1 := by
    simp [pairs, Code.isScalar_iff]
  have values : ∀ pair ∈ pairs, pair.2.IsScalar ∧ 0xE9 ∉ pair.2 ∧ pair.2.IsStripped := by
    have visible : Text.isBlank 0x61 = false ∧ Text.isBlank 0x63 = false := by decide
    simp [pairs, Code.isScalar_iff, Text.IsStripped, visible]
  exact written_lines_read_back 0xE9 pairs (by decide) (by decide) (by decide) (by decide) keys
    values

/-! ## Nothing is lost -/

/-- **Reading lines loses only colons and blanks.** From every position of a text, for every
delimiter, reading the lines answers one record for each segment of what is ahead, in order, and
ends at the end. The span of a record is that of its segment. The text there is the key, a colon,
blanks and the value, where the key has no colon and the value no blank in front; or, if it has no
colon, blanks and the value, and the key is empty. -/
theorem lines_lose_only_blanks (source : Source) (delimiter : Pattern) (test : Code → Bool)
    (position : Nat) (isText : source.mode = .text) (admits : source.Admits position)
    (matched : delimiter.test? source.mode = .ok test)
    (searchable : delimiter.Searchable source.mode) :
    ∃ (segments : List View) (records : List KeyValue),
      HandsOut ⟨source, []⟩ delimiter ⟨position, false⟩ segments ⟨source.stop, true⟩ ∧
      source.Tiles test position segments ∧
      keyValues ⟨source, []⟩ delimiter position = (.ok records, source.stop) ∧
      records.map (·.span) =
        (segments.map fun segment => ⟨segment.source.start, segment.source.stop⟩) ∧
      ∀ record ∈ records, ∃ line,
        Utf8.decode (Utf8.slice source.bytes record.span.start record.span.stop) = .ok line ∧
        Text.DividedInto line record.key record.value := by
  obtain ⟨segments, handsOut, tiles, read⟩ := keyValues_eq matched searchable admits isText
  refine ⟨segments, _, handsOut, tiles, read, ?_, ?_⟩
  · rw [List.map_map]
    rfl
  · intro record member
    obtain ⟨segment, isSegment, rfl⟩ := List.mem_map.mp member
    obtain ⟨first, last, rfl, firstAdmits, lastAdmits, ordered, -⟩ :=
      tiles.segment_of_mem isSegment
    have lineAdmits := (firstAdmits.wellFormed_narrowed lastAdmits ordered).admits_start
    exact ⟨_, lineAdmits.decodeFrom_slice isText 0, Text.dividedInto_keyAndValue _⟩

/-- Past the first letter of `ék: vé w`, split at that letter: a line with a colon and one without,
each with a blank before its value. -/
theorem lines_lose_only_blanks_past_delimiter :
    let source : Source :=
      ⟨.text, #[0xC3, 0xA9, 0x6B, 0x3A, 0x20, 0x76, 0xC3, 0xA9, 0x20, 0x77], 0, 10⟩
    source.Admits 2 ∧ ∃ records,
      keyValues ⟨source, []⟩ (.literal (.text [0xE9])) 2 = (.ok records, 10) ∧
      records.length = 2 ∧ ∀ record ∈ records, ∃ line,
        Utf8.decode (Utf8.slice source.bytes record.span.start record.span.stop) = .ok line ∧
        Text.DividedInto line record.key record.value := by
  let source : Source :=
    ⟨.text, #[0xC3, 0xA9, 0x6B, 0x3A, 0x20, 0x76, 0xC3, 0xA9, 0x20, 0x77], 0, 10⟩
  have accepted : Source.ofInput .text
      (.text [0xE9, 0x6B, 0x3A, 0x20, 0x76, 0xE9, 0x20, 0x77]) = .ok source := rfl
  have wellFormed : source.WellFormed :=
    Source.wellFormed_ofInput (by rintro text ⟨rfl⟩; decide) accepted
  have boundary : Utf8.ScalarBoundary source.bytes.toList 2 :=
    @Utf8.scalarBoundary_of_split _ [0xE9] [0x6B, 0x3A, 0x20, 0x76, 0xE9, 0x20, 0x77]
      (by simp [Code.isScalar_iff]) rfl
  have admits : source.Admits 2 := ⟨wellFormed, Nat.zero_le _, by decide, fun _ => boundary⟩
  have searchable : (Pattern.literal (.text [0xE9])).Searchable .text :=
    Pattern.searchable_literal rfl (by decide)
  obtain ⟨segments, records, -, tiles, read, spans, divided⟩ :=
    lines_lose_only_blanks source (.literal (.text [0xE9])) (· == 0xE9) 2 rfl admits rfl searchable
  have count : records.length = segments.length := by
    rw [← List.length_map (·.span), spans, List.length_map]
  refine ⟨admits, records, read, ?_, divided⟩
  rw [count, tiles.length_eq]
  decide +kernel

end View

end RecordScan
