import RecordScan.Proofs.Grammar.Matching
import RecordScan.Proofs.Grammar.Numerals
import RecordScan.Proofs.Scan.Resting

/-!
Contract: numbers seen through an ignoring layer.

Owns: the places where reading a number rests (`View.number_rests`); what is made of any
recorded text; and the law that compares reading through an ignoring layer with reading
the bytes that are left without what it ignores.

The scan sees what is left, so both find the same spelling. The value is read from what
was recorded, which is that spelling with what is ignored between its characters.
-/

namespace RecordScan

open Number (Spelling form LongestMatch)

namespace Utf8

theorem Sequence.ascii_iff {code : Code} {lead : UInt8} {tail : List UInt8}
    (sequence : Sequence code lead tail) : lead.toNat < 0x80 ↔ tail = [] := by
  have announced := sequence.width_lead
  constructor
  · intro ascii
    rw [width, if_pos ascii] at announced
    exact List.eq_nil_of_length_eq_zero (Nat.succ.inj announced).symm
  · rintro rfl
    unfold width at announced
    split_ifs at announced with ascii
    · exact ascii
    all_goals cases announced

/-- Of the bytes of a longer sequence the first differs from the others, so with one foreign byte
and ASCII there are none. -/
theorem eq_map_of_decode {bytes : List UInt8} {text : Text} {foreign : UInt8}
    (others : ∀ byte ∈ bytes, byte = foreign ∨ byte.toNat < 0x80)
    (decoded : decode bytes = .ok text) :
    text = bytes.map UInt8.toNat ∧ ∀ byte ∈ bytes, byte.toNat < 0x80 := by
  obtain ⟨scalars, rfl⟩ := decode_eq_ok_iff.mp decoded
  clear decoded
  induction text with
  | nil => exact ⟨rfl, nofun⟩
  | cons code text inductionHypothesis =>
      obtain ⟨scalar, textScalars⟩ := (Text.isScalar_cons code text).mp scalars
      obtain ⟨lead, tail, sequence⟩ := exists_sequence scalar
      rw [encodeAll_cons, sequence.encoded] at others ⊢
      cases tail with
      | nil =>
          obtain ⟨later, laterAscii⟩ := inductionHypothesis textScalars
            fun byte member => others byte (List.mem_append_right _ member)
          refine ⟨?_, fun byte member => ?_⟩
          · rw [List.cons_append, List.nil_append, List.map_cons, ← later, sequence.alone rfl]
          · rcases List.mem_cons.mp member with rfl | inLater
            · exact sequence.ascii_iff.mpr rfl
            · exact laterAscii byte inLater
      | cons second tail =>
          have follows := sequence.tail_continuation second (List.mem_cons_self ..)
          have leads : ¬ lead.toNat < 0x80 := mt sequence.ascii_iff.mp (List.cons_ne_nil _ _)
          have notAscii : ¬ second.toNat < 0x80 := by
            simp only [isContinuation, Bool.and_eq_true, decide_eq_true_eq] at follows
            exact Nat.not_lt.mpr follows.1
          have isLead := (others lead (by simp)).resolve_right leads
          have isSecond := (others second (by simp)).resolve_right notAscii
          rw [isSecond, ← isLead, sequence.lead_boundary] at follows
          cases follows

end Utf8

namespace Source

variable (bytes : List UInt8)

theorem admits_ofBytes : (ofBytes bytes).Admits 0 :=
  (@wellFormed_ofInput .bytes (.bytes bytes) _ nofun rfl).admits_start

theorem slice_ofBytes (last : Nat) :
    Utf8.slice (ofBytes bytes).bytes 0 last = bytes.take last := by
  rw [Utf8.slice_eq]
  rfl

theorem unitsFrom_narrowed_ofBytes (last : Nat) :
    ((ofBytes bytes).narrowed 0 last).unitsFrom 0 = (bytes.take last).map UInt8.toNat := by
  exact congrArg (List.map UInt8.toNat) (slice_ofBytes bytes last)

theorem unitsFrom_ofBytes : (ofBytes bytes).unitsFrom 0 = bytes.map UInt8.toNat := by
  have whole := unitsFrom_narrowed_ofBytes bytes bytes.length
  rwa [List.take_length] at whole

end Source

namespace View

variable {view : View} {mark position : Nat} {spelling : Spelling}

/-! ## Where the scan rests -/

/-- A number ends right behind a unit that is seen, or where it would begin. -/
theorem number_rests (placed : view.Placed mark) :
    (view.recordFrom mark).Behind mark (view.number mark).2 := by
  have begins : (view.recordFrom mark).Behind mark mark :=
    (placed.recordFrom (Nat.le_refl mark)).behind
  have returns : Scan.Rests ((view.recordFrom mark).Behind mark) (view.restore mark) := by
    intro position _
    have restored : view.restore mark position = (.ok (), mark) := restoreThrough_eq placed position
    rw [restored]
    exact begins
  rw [number, Scan.position_bind]
  refine Scan.Rests.bind (nextIf_rests _) (fun sign => ?_) mark begins
  refine (countRun_rests _).bind fun count => ?_
  split
  · exact returns.bind fun _ => .pure _
  · refine (nextIf_rests _).bind fun point => ?_
    cases point with
    | none =>
        refine recordedInteger_rests.bind fun value => ?_
        exact (Scan.Rests.ofExcept _).bind fun _ => .pure _
    | some unit =>
        refine ((countRun_rests _).bind fun _ => .pure _).bind fun _ => ?_
        refine recordedReal_rests.bind fun value => ?_
        exact (Scan.Rests.ofExcept _).bind fun _ => .pure _

theorem ignoring_not_mem_of_number {unit : Code} (placed : view.Placed mark)
    (isLast : ((view.source.narrowed mark (view.number mark).2).unitsFrom mark).getLast? =
      some unit) : .ignoring unit ∉ view.layers := by
  have notRecorded := (number_rests placed).getLast?_unitsFrom placed.1 isLast
  exact fun member => notRecorded (List.mem_cons_of_mem _ member)

/-! ## What is made of a recorded text -/

/-- A recording that is no text is refused as such. -/
theorem convert_of_refused {fault : Fault}
    (refused : view.recordedText position = (.error fault, position)) :
    view.convert spelling position = (.error fault, position) := by
  cases isFraction : spelling.fraction with
  | none =>
      have notRead : view.recordedInteger position = (.error fault, position) :=
        Scan.bind_of_error refused
      simp only [convert, isFraction]
      exact Scan.bind_of_error notRead
  | some fraction =>
      have notRead : view.recordedReal position = (.error fault, position) :=
        Scan.bind_of_error refused
      simp only [convert, isFraction]
      exact Scan.bind_of_error notRead

/-- Of a recorded text a number is made if the text is a numeral of its kind, else a refusal. -/
theorem convert_of_recorded {text : Text}
    (recorded : view.recordedText position = (.ok text, position)) :
    ∃ result : Except Fault Number,
      view.convert spelling position = (result.map some, position) ∧
      ∀ number, result = .ok number ↔ spelling.readAs text = some number := by
  cases isFraction : spelling.fraction with
  | none =>
      let kind := if spelling.negative then NumberKind.integer else .uint
      simp only [convert, isFraction, Spelling.readAs_whole isFraction]
      cases isValue : Numeral.readInteger text with
      | ok value =>
          have answered : view.recordedInteger position = (.ok value, position) := by
            rw [recordedInteger, Scan.bind_of_ok recorded, isValue]
            rfl
          rw [Scan.bind_of_ok answered]
          refine ⟨Number.checked kind (.whole value), ?_, fun number => ?_⟩
          · cases Number.checked kind (.whole value) with
            | ok number => rfl
            | error fault => rfl
          · rw [Number.checked_whole_iff]
            simp
      | error refusal =>
          obtain ⟨fault, refused⟩ :
              ∃ fault, view.recordedInteger position = (.error fault, position) := by
            rw [recordedInteger, Scan.bind_of_ok recorded, isValue]
            cases refusal with
            | malformed => exact ⟨_, rfl⟩
            | tooLong count => exact ⟨_, rfl⟩
          exact ⟨.error fault, Scan.bind_of_error refused, by simp⟩
  | some fraction =>
      simp only [convert, isFraction, Spelling.readAs_pointed isFraction]
      cases isValue : Numeral.readReal text with
      | some value =>
          have answered : view.recordedReal position = (.ok value, position) := by
            rw [recordedReal, Scan.bind_of_ok recorded, isValue]
            rfl
          rw [Scan.bind_of_ok answered]
          exact ⟨.ok ⟨.float, .real value⟩, rfl, by simp⟩
      | none =>
          have refused : view.recordedReal position = (.error (.realSyntax text), position) := by
            rw [recordedReal, Scan.bind_of_ok recorded, isValue]
            rfl
          exact ⟨.error (.realSyntax text), Scan.bind_of_error refused, by simp⟩

/-- What is made of a recording, which need not be a text. -/
theorem convert_reads {start : Nat} (found : view.recordingStart = some start)
    (reached : start ≤ position) :
    ∃ result : Except Fault Number,
      view.convert spelling position = (result.map some, position) ∧
      ∀ number, result = .ok number ↔
        ∃ text, Utf8.decode (Utf8.slice view.source.bytes start position) = .ok text ∧
          spelling.readAs text = some number := by
  let bytes := Utf8.slice view.source.bytes start position
  have same (text : Text) : Utf8.decode bytes = .ok text ↔ Utf8.decodeFrom start bytes = .ok text :=
    Utf8.decode_eq_ok_iff.trans Utf8.decodeFrom_eq_ok_iff.symm
  have recorded := recordedText_eq found reached
  cases decoded : Utf8.decodeFrom start bytes with
  | ok text =>
      rw [decoded] at recorded
      obtain ⟨result, converted, reads⟩ := @convert_of_recorded view position spelling text recorded
      refine ⟨result, converted, fun number => (reads number).trans ?_⟩
      simp [bytes, same, decoded]
  | error defect =>
      rw [decoded] at recorded
      refine ⟨.error defect.fault, convert_of_refused recorded, fun number => ?_⟩
      simp [bytes, same, decoded]

theorem map_some_inj {first second : Except Fault Number}
    (same : first.map some = second.map some) : first = second := by
  cases first <;> cases second <;> cases same <;> rfl

/-- A spelling that is recorded as it is is converted to one reading, wherever it stands. -/
theorem exists_reading (spelling : Spelling) :
    ∃ reading : Except Fault Number,
      (∀ (view : View) (position : Nat),
        view.recordedText position = (.ok spelling.text, position) →
        view.convert spelling position = (reading.map some, position)) ∧
      ∀ number, reading = .ok number ↔ spelling.readAs spelling.text = some number := by
  by_cases tooLong : spelling.TooLong
  · refine ⟨.error (.integerDigits spelling.whole.length), ?_, ?_⟩
    · exact fun view position recorded => convert_of_tooLong recorded tooLong
    · simp [Spelling.readAs_text, tooLong]
  · refine ⟨.ok spelling.number, ?_, ?_⟩
    · exact fun view position recorded => convert_of_short recorded tooLong
    · simp [Spelling.readAs_text, tooLong]

/-! ## Numbers through a layer -/

section Ignoring

variable (bytes : List UInt8) (ignored : UInt8)

theorem map_filter_toNat :
    (bytes.map UInt8.toNat).filter (· != ignored.toNat) =
      (bytes.filter (· != ignored)).map UInt8.toNat := by
  rw [List.filter_map]
  congr 1
  apply List.filter_congr
  intro byte _
  simp [bne, UInt8.toNat_inj]

theorem visible_ignoring :
    visible ⟨.ofBytes bytes, [.ignoring ignored.toNat]⟩ 0 =
      (bytes.filter (· != ignored)).map UInt8.toNat := by
  show ((Source.ofBytes bytes).unitsFrom 0).filter (· != ignored.toNat) = _
  rw [Source.unitsFrom_ofBytes, map_filter_toNat]

theorem part_visible_ignoring (last : Nat) :
    (part ⟨.ofBytes bytes, [.ignoring ignored.toNat]⟩ 0 last).visible 0 =
      ((bytes.take last).filter (· != ignored)).map UInt8.toNat := by
  rw [part_visible, Source.unitsFrom_narrowed_ofBytes, ← map_filter_toNat]
  apply List.filter_congr
  intro unit _
  rw [Bool.eq_iff_iff]
  simp

variable {bytes ignored}

/-- Bytes that are a text and show a spelling are that spelling with ASCII between. -/
theorem shown_of_decode {text : Text} (decoded : Utf8.decode bytes = .ok text)
    (shown : (bytes.filter (· != ignored)).map UInt8.toNat = spelling.text) :
    text.filter (· != ignored.toNat) = spelling.text ∧ ∀ code ∈ text, (code : Nat) < 0x80 := by
  have others (byte : UInt8) (member : byte ∈ bytes) : byte = ignored ∨ byte.toNat < 0x80 := by
    by_cases isIgnored : byte = ignored
    · exact .inl isIgnored
    · have isShown : byte.toNat ∈ spelling.text := by
        rw [← shown]
        exact List.mem_map_of_mem (List.mem_filter.mpr ⟨member, bne_iff_ne.mpr isIgnored⟩)
      exact .inr (Nat.lt_of_le_of_lt (Spelling.bounds_of_mem isShown).2 (by decide))
  obtain ⟨rfl, ascii⟩ := Utf8.eq_map_of_decode others decoded
  refine ⟨(map_filter_toNat bytes ignored).trans shown, fun code member => ?_⟩
  obtain ⟨byte, isByte, rfl⟩ := List.mem_map.mp member
  exact ascii byte isByte

/-- The layer shows the bytes that are left, so the longest spelling among them is found, and
recorded with what is ignored before its last character. -/
theorem number_ignoring_cases (bytes : List UInt8) (ignored : UInt8) :
    let view : View := ⟨.ofBytes bytes, [.ignoring ignored.toNat]⟩
    let kept := (bytes.filter (· != ignored)).map UInt8.toNat
    (∃ (spelling : Spelling) (rest : Text) (last : Nat),
      kept = spelling.text ++ rest ∧ spelling.Ends rest ∧ last ≤ bytes.length ∧
      ((bytes.take last).filter (· != ignored)).map UInt8.toNat = spelling.text ∧
      view.number 0 = (view.recordFrom 0).convert spelling last) ∨
    (∀ spelling : Spelling, ¬ spelling.text <+: kept) ∧ view.number 0 = (.ok none, 0) := by
  intro view kept
  have admits := Source.admits_ofBytes bytes
  have placed : view.Placed 0 := ⟨admits, by simp [view]⟩
  have unstopped : .stopped ∉ view.layers := by simp [view]
  have isVisible : view.visible 0 = kept := visible_ignoring bytes ignored
  rcases number_cases placed with
    ⟨spelling, rest, last, isAhead, ends, lastPlaced, forward, isRest, converted⟩ |
    ⟨unspelled, answered⟩
  · have parts := visible_part unstopped admits lastPlaced.1 forward
    rw [isAhead, isRest, part_visible_ignoring] at parts
    exact .inl ⟨spelling, rest, last, isVisible.symm.trans isAhead, ends, lastPlaced.1.le_stop,
      (List.append_cancel_right parts).symm, converted⟩
  · rw [isVisible] at unspelled
    exact .inr ⟨unspelled, answered⟩

/-- Where nothing was ignored, a spelling is recorded as it was seen. -/
theorem recordedText_of_not_mem {layers : List Layer} {last : Nat}
    (shown : ((bytes.take last).filter (· != ignored)).map UInt8.toNat = spelling.text)
    (noneBetween : ignored ∉ bytes.take last) :
    recordedText (recordFrom ⟨.ofBytes bytes, layers⟩ 0) last = (.ok spelling.text, last) := by
  have isWhole : (bytes.take last).filter (· != ignored) = bytes.take last := by
    refine List.filter_eq_self.mpr fun byte member => bne_iff_ne.mpr ?_
    rintro rfl
    exact noneBetween member
  rw [isWhole] at shown
  have decoded : Utf8.decodeFrom 0 (Utf8.slice (Source.ofBytes bytes).bytes 0 last) =
      .ok spelling.text := by
    rw [Source.slice_ofBytes, Spelling.decodeFrom_eq 0 shown]
  rw [recordedText_eq rfl (Nat.zero_le last)]
  exact congrArg (fun result => (Except.mapError Utf8.Defect.fault result, last)) decoded

end Ignoring

/-- Over a bare source the longest spelling is recorded as it is. -/
theorem number_bare_eq {source : Source} {rest : Text} {reading : Except Fault Number}
    (admits : source.Admits mark) (isAhead : source.unitsFrom mark = spelling.text ++ rest)
    (ends : spelling.Ends rest)
    (converts : ∀ (view : View) (position : Nat),
      view.recordedText position = (.ok spelling.text, position) →
      view.convert spelling position = (reading.map some, position)) :
    number ⟨source, []⟩ mark = (reading.map some, mark + spelling.text.length) := by
  have placed : Placed ⟨source, []⟩ mark := ⟨admits, nofun⟩
  rcases number_cases placed with
    ⟨other, rest, last, isVisible, otherEnds, lastPlaced, forward, isRest, converted⟩ |
    ⟨unspelled, -⟩
  · replace isVisible : source.unitsFrom mark = other.text ++ rest := isVisible
    replace isRest : source.unitsFrom last = rest := isRest
    have longest := ends.longest
    rw [← isAhead, isVisible] at longest
    obtain rfl := otherEnds.eq_of_longest longest
    rw [← isRest] at isVisible
    rw [converted, converts _ _ (recordedText_spelling admits lastPlaced.1 forward isVisible),
      Spelling.eq_add_length admits lastPlaced.1 isVisible]
  · have isPrefix : spelling.text <+: source.unitsFrom mark := isAhead ▸ List.prefix_append _ _
    exact absurd isPrefix (unspelled spelling)

/-- **Numbers through an ignoring layer.** The bytes that are left without the ignored one have no
number exactly if none is read through the layer. Otherwise the layer is left right behind the
longest match among the bytes that it shows, and what is read is what the recorded bytes say, those
that were ignored included. That is the number of the bytes that are left if none was ignored in
between, and it is this number or a refusal whenever the ignored byte is not a digit, the minus or
the letter of an exponent. -/
theorem ignoring_number_reads_recorded (bytes : List UInt8) (ignored : UInt8) :
    let view : View := ⟨.ofBytes bytes, [.ignoring ignored.toNat]⟩
    let kept := bytes.filter (· != ignored)
    let bare : View := ⟨.ofBytes kept, []⟩
    ((∀ text ∈ form.matches', ¬ text <+: kept.map UInt8.toNat) ∧
      view.number 0 = (.ok none, 0) ∧ bare.number 0 = (.ok none, 0)) ∨
    ∃ (spelling : Spelling) (last : Nat) (result reading : Except Fault Number),
      LongestMatch spelling.text (kept.map UInt8.toNat) ∧
      last ≤ bytes.length ∧
      ((bytes.take last).filter (· != ignored)).map UInt8.toNat = spelling.text ∧
      (bytes.take last).getLast? ≠ some ignored ∧
      view.number 0 = (result.map some, last) ∧
      bare.number 0 = (reading.map some, spelling.text.length) ∧
      (∀ number, result = .ok number ↔
        ∃ text, Utf8.decode (bytes.take last) = .ok text ∧ spelling.readAs text = some number) ∧
      (∀ number, reading = .ok number ↔ spelling.readAs spelling.text = some number) ∧
      (ignored ∉ bytes.take last → result = reading) ∧
      (¬ Numeral.Bears ignored.toNat → ∀ number, result = .ok number → reading = .ok number) := by
  intro view kept bare
  have placed : view.Placed 0 := ⟨Source.admits_ofBytes bytes, by simp [view]⟩
  have bareAdmits := Source.admits_ofBytes kept
  have bareUnits := Source.unitsFrom_ofBytes kept
  rcases number_ignoring_cases bytes ignored with
    ⟨spelling, rest, last, isAhead, ends, inside, shown, converted⟩ | ⟨unspelled, answered⟩
  · obtain ⟨result, isResult, reads⟩ :=
      @convert_reads (view.recordFrom 0) last spelling 0 rfl (Nat.zero_le last)
    -- Both are conversions of one spelling: of what is recorded, and of its own text.
    obtain ⟨reading, converts, readsText⟩ := exists_reading spelling
    have bareAnswered := number_bare_eq bareAdmits (bareUnits.trans isAhead) ends converts
    have longest : LongestMatch spelling.text (kept.map UInt8.toNat) := by
      rw [isAhead]
      exact Number.longestMatch_text_iff.mpr ends.longest
    replace reads (number : Number) := Source.slice_ofBytes bytes last ▸ reads number
    rw [Nat.zero_add] at bareAnswered
    rw [isResult] at converted
    refine .inr ⟨spelling, last, result, reading, longest, inside, shown, ?_, converted,
      bareAnswered, reads, readsText, ?_, ?_⟩
    · intro isLast
      refine absurd (List.mem_singleton_self _) (ignoring_not_mem_of_number placed ?_)
      rw [converted, Source.unitsFrom_narrowed_ofBytes, List.getLast?_map, isLast]
      rfl
    · intro noneBetween
      have same := converts (view.recordFrom 0) last (recordedText_of_not_mem shown noneBetween)
      exact map_some_inj (Prod.mk.inj (isResult.symm.trans same)).1
    · intro bearsNot number isNumber
      obtain ⟨text, decoded, read⟩ := (reads number).mp isNumber
      obtain ⟨isShown, ascii⟩ := shown_of_decode decoded shown
      exact (readsText number).mpr (Spelling.readAs_of_shown isShown ascii bearsNot read)
  · refine .inl ⟨?_, answered, ?_⟩
    · intro text matched
      obtain ⟨spelling, rfl⟩ := Number.mem_form_iff.mp matched
      exact unspelled spelling
    · rcases number_bare_cases bareAdmits with
        ⟨spelling, rest, last, isAhead, -⟩ | ⟨-, bareAnswered⟩
      · rw [bareUnits] at isAhead
        exact absurd (isAhead ▸ List.prefix_append _ _) (unspelled spelling)
      · exact bareAnswered

/-- In `-1_0.5` the ignored underscore stands between digits, where numerals may have it. -/
theorem ignoring_number_reads_recorded_grouped :
    let bytes : List UInt8 := [0x2D, 0x31, 0x5F, 0x30, 0x2E, 0x35]
    ∃ value, number ⟨.ofBytes bytes, [.ignoring 0x5F]⟩ 0 = (.ok (some ⟨.float, .real value⟩), 6) ∧
      number ⟨.ofBytes (bytes.filter (· != 0x5F)), []⟩ 0 =
        (.ok (some ⟨.float, .real value⟩), 5) := by
  intro bytes
  have seen : number ⟨.ofBytes bytes, [.ignoring 0x5F]⟩ 0 =
      (.ok (some ⟨.float, .real (.ofDecimal true 105 (-1))⟩), 6) := by decide +kernel
  rcases ignoring_number_reads_recorded bytes 0x5F with
    ⟨-, nothing, -⟩ |
    ⟨spelling, last, result, reading, -, -, shown, -, answered, bareAnswered, -, -, -, agrees⟩
  · cases seen.symm.trans nothing
  · have same := seen.symm.trans answered
    obtain ⟨isResult, rfl⟩ := Prod.mk.inj same
    have isReading := agrees (by decide) _ (@map_some_inj result (.ok _) isResult.symm)
    have length : spelling.text.length = 5 := by
      rw [← shown]
      rfl
    rw [isReading, length] at bareAnswered
    exact ⟨_, seen, bareAnswered⟩

/-- What is ignored is read nevertheless: in `102` the digit, in `-1.5` the minus, in `1.e5` the
letter of an exponent; and in `1 2` the space is no part of a numeral. -/
theorem ignored_byte_changes_number :
    let through (ignored : UInt8) (bytes : List UInt8) :=
      (number ⟨.ofBytes bytes, [.ignoring ignored.toNat]⟩ 0).1
    let without (ignored : UInt8) (bytes : List UInt8) :=
      (number ⟨.ofBytes (bytes.filter (· != ignored)), []⟩ 0).1
    (through 0x30 [0x31, 0x30, 0x32] = .ok (some ⟨.uint, .whole 102⟩) ∧
      without 0x30 [0x31, 0x30, 0x32] = .ok (some ⟨.uint, .whole 12⟩)) ∧
    through 0x2D [0x2D, 0x31, 0x2E, 0x35] ≠ without 0x2D [0x2D, 0x31, 0x2E, 0x35] ∧
    through 0x65 [0x31, 0x2E, 0x65, 0x35] ≠ without 0x65 [0x31, 0x2E, 0x65, 0x35] ∧
    (through 0x20 [0x31, 0x20, 0x32] = .error (.integerSyntax [0x31, 0x20, 0x32]) ∧
      without 0x20 [0x31, 0x20, 0x32] = .ok (some ⟨.uint, .whole 12⟩)) := by
  decide +kernel

end View

end RecordScan
