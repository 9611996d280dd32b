import RecordScan.Proofs.Grammar.KeyValue

/-!
Contract: key/value lines of bytes that need not be UTF-8.

Owns: byte strings that are texts (`Utf8.IsText`), said by what they encode and not by a
decoder; that a text may be cut at an ASCII byte (`Utf8.isText_append_ascii`); and that
reading a line is refused exactly if its bytes are no text (`View.keyValue_readsText`).

The key and the value are decoded each for itself. The colon between them is ASCII, so that
no sequence is torn apart, and none is made by leaving the colon out.
-/

namespace RecordScan

namespace Utf8

/-- Byte strings that encode scalars. -/
def IsText (bytes : List UInt8) : Prop :=
  ∃ text : Text, text.IsScalar ∧ bytes = encodeAll text

theorem isText_nil : IsText [] :=
  ⟨[], Text.isScalar_nil, rfl⟩

/-- The decoder accepts texts, wherever they start. -/
theorem isText_iff (offset : Nat) (bytes : List UInt8) :
    IsText bytes ↔ ∃ text, decodeFrom offset bytes = .ok text := by
  unfold IsText
  simp only [decodeFrom_eq_ok_iff]

theorem exists_defect {bytes : List UInt8} (notText : ¬ IsText bytes) (offset : Nat) :
    ∃ defect, decodeFrom offset bytes = .error defect := by
  rw [isText_iff offset] at notText
  cases decoded : decodeFrom offset bytes with
  | ok text => exact absurd ⟨text, decoded⟩ notText
  | error defect => exact ⟨defect, rfl⟩

/-- An ASCII byte stands between the sequences of a text, so that a text may be cut there. -/
theorem isText_append_ascii {first second : List UInt8} {byte : UInt8}
    (ascii : byte.toNat < 0x80) :
    IsText (first ++ byte :: second) ↔ IsText first ∧ IsText second := by
  have alone := encodeCode_ascii ascii
  have scalar := Code.isScalar_of_ascii ascii
  constructor
  · intro isText
    obtain ⟨text, decoded⟩ := (isText_iff 0 _).mp isText
    -- The byte is the encoding of its own character, which stands at a boundary.
    have stands : encodeCode byte.toNat <+:
        (first ++ byte :: second).toArray.toList.drop first.length := by
      rw [alone, List.drop_left]
      exact ⟨second, rfl⟩
    obtain ⟨before, after, isWhole, width⟩ := scalarBoundary_of_isPrefix decoded stands
    obtain ⟨scalars, encoded⟩ := decode_eq_ok_iff.mp isWhole
    rw [Text.isScalar_append] at scalars
    rw [encodeAll_append] at encoded
    obtain ⟨firstEq, restEq⟩ := List.append_inj encoded width
    refine ⟨⟨before, scalars.1, firstEq⟩, ?_⟩
    cases after with
    | nil => cases restEq
    | cons code after =>
        rw [Text.isScalar_cons] at scalars
        have same : encodeCode byte.toNat ++ second = encodeCode code ++ encodeAll after := by
          rw [alone]
          exact restEq
        exact ⟨after, scalars.2.2, (encodeCode_append_inj scalar scalars.2.1 same).2⟩
  · rintro ⟨⟨before, beforeScalars, rfl⟩, after, afterScalars, rfl⟩
    refine ⟨before ++ byte.toNat :: after, ?_, ?_⟩
    · rw [Text.isScalar_append, Text.isScalar_cons]
      exact ⟨beforeScalars, scalar, afterScalars⟩
    · rw [encodeAll_append, encodeAll_cons, alone]
      rfl

end Utf8

theorem Source.Admits.isText_slice {source : Source} {position : Nat}
    (admits : source.Admits position) (isText : source.mode = .text) :
    Utf8.IsText (Utf8.slice source.bytes position source.stop) :=
  (Utf8.isText_iff 0 _).mpr ⟨_, admits.decodeFrom_slice isText 0⟩

namespace View

variable {source : Source} {position : Nat}

/-- A scan that answers if some bytes are a text, and whose parse fails otherwise. -/
structure ReadsText {α : Type} (bytes : List UInt8) (result : Except Fault α × Nat) : Prop where
  answers : Utf8.IsText bytes → ∃ value, result.1 = .ok value
  fails : ¬ Utf8.IsText bytes → ∃ fault, fault.isParseFailure = true ∧ result.1 = .error fault

theorem ReadsText.of_ok {α : Type} {bytes : List UInt8} {value : α} {moved : Nat}
    (isText : Utf8.IsText bytes) : ReadsText bytes (.ok value, moved) :=
  ⟨fun _ => ⟨value, rfl⟩, fun notText => absurd isText notText⟩

theorem ReadsText.of_error {α : Type} {bytes : List UInt8} {fault : Fault} {moved : Nat}
    (notText : ¬ Utf8.IsText bytes) (isFailure : fault.isParseFailure = true) :
    ReadsText bytes ((.error fault, moved) : Except Fault α × Nat) :=
  ⟨fun isText => absurd isText notText, fun _ => ⟨fault, isFailure, rfl⟩⟩

theorem ReadsText.map {α β : Type} {bytes : List UInt8} {scan : Scan α}
    (read : ReadsText bytes (scan position)) (answer : α → β) :
    ReadsText bytes ((scan >>= fun value => return answer value) position) := by
  cases result : scan position with
  | mk found moved =>
      rw [result] at read
      cases found with
      | ok value =>
          rw [Scan.bind_of_ok result]
          refine ⟨fun _ => ⟨answer value, rfl⟩, fun notText => ?_⟩
          obtain ⟨fault, -, refused⟩ := read.fails notText
          cases refused
      | error fault =>
          rw [Scan.bind_of_error result]
          refine ⟨fun isText => ?_, fun notText => ?_⟩
          · obtain ⟨value, answered⟩ := read.answers isText
            cases answered
          · obtain ⟨cause, isFailure, refused⟩ := read.fails notText
            cases refused
            exact ⟨fault, isFailure, rfl⟩

/-- What was recorded is a part of the bytes. It is decoded before the scan goes on, which fails if
the part is no text. -/
theorem readsText_recordedText_bind {α : Type} {start : Nat} {bytes : List UInt8}
    {next : Text → Scan α} (reached : start ≤ position)
    (isPart : Utf8.IsText bytes → Utf8.IsText (Utf8.slice source.bytes start position))
    (later : Utf8.IsText (Utf8.slice source.bytes start position) →
      ∀ text, ReadsText bytes (next text position)) :
    ReadsText bytes ((recordedText (recordFrom ⟨source, []⟩ start) >>= next) position) := by
  have recorded : recordedText (recordFrom ⟨source, []⟩ start) position =
      ((Utf8.decodeFrom start (Utf8.slice source.bytes start position)).mapError
        Utf8.Defect.fault, position) := recordedText_eq rfl reached
  by_cases isText : Utf8.IsText (Utf8.slice source.bytes start position)
  · obtain ⟨text, decoded⟩ := (Utf8.isText_iff start _).mp isText
    rw [decoded] at recorded
    rw [Scan.bind_of_ok recorded]
    exact later isText text
  · obtain ⟨defect, refused⟩ := Utf8.exists_defect isText start
    rw [refused] at recorded
    rw [Scan.bind_of_error recorded]
    exact .of_error (fun whole => isText (isPart whole)) rfl

/-- The bytes of a line are those of its key and then nothing, or a colon and the value. -/
theorem exists_key (admits : source.Admits position) (isBytes : source.mode = .bytes) :
    ∃ last moved, position ≤ last ∧ moved ≤ source.stop ∧
      consumeUntil (recordFrom ⟨source, []⟩ position) (character ':') position =
        (.ok (), last) ∧
      ((Utf8.slice source.bytes position source.stop = Utf8.slice source.bytes position last ∧
          advance ⟨source, []⟩ last = (.ok none, moved)) ∨
        (Utf8.slice source.bytes position source.stop = Utf8.slice source.bytes position last ++
            0x3A :: Utf8.slice source.bytes moved source.stop ∧
          advance ⟨source, []⟩ last = (.ok (some 0x3A), moved))) := by
  obtain ⟨last, lastAdmits, forward, ahead, consumed⟩ := consumeUntil_colon admits
  obtain ⟨moved, taken, movedAdmits, -, movedAhead⟩ := source.reads.advance_leaves lastAdmits
  have advanced : advance ⟨source, []⟩ last = _ := taken
  have units (place : Nat) : source.unitsFrom place =
      (Utf8.slice source.bytes place source.stop).map UInt8.toNat := by
    simp only [Source.unitsFrom, isBytes]
  refine ⟨last, moved, forward, movedAdmits.le_stop, consumed, ?_⟩
  rw [Utf8.slice_append source.bytes forward lastAdmits.le_stop, advanced]
  have isColon := List.head?_dropWhile_not (· != ':'.toNat) (source.unitsFrom position)
  rw [← ahead, units last] at isColon
  rw [units moved, units last] at movedAhead
  rw [units last]
  cases rest : Utf8.slice source.bytes last source.stop with
  | nil => exact .inl ⟨List.append_nil _, rfl⟩
  | cons byte value =>
      rw [rest] at isColon movedAhead
      have same : byte = 0x3A := by
        apply UInt8.toNat_inj.mp
        simpa using isColon
      have isValue : Utf8.slice source.bytes moved source.stop = value :=
        (List.map_inj_right fun _ _ => UInt8.toNat_inj.mp).mp movedAhead
      rw [same, isValue]
      exact .inr ⟨rfl, rfl⟩

/-- **A line is read exactly if its bytes are a text.** Otherwise its parse fails. -/
theorem keyValue_readsText (admits : source.Admits position) :
    ReadsText (Utf8.slice source.bytes position source.stop)
      (keyValue ⟨source, []⟩ position) := by
  cases isMode : source.mode with
  | text =>
      refine ⟨fun _ => ⟨_, congrArg Prod.fst (keyValue_eq admits isMode)⟩, fun notText => ?_⟩
      exact absurd (admits.isText_slice isMode) notText
  | bytes =>
      obtain ⟨last, moved, forward, within, consumed, shape⟩ := exists_key admits isMode
      have span : Span.checked source.start source.stop = .ok ⟨source.start, source.stop⟩ :=
        if_neg (Nat.not_lt.mpr admits.start_le_stop)
      rw [keyValue, Scan.ofExcept_bind_of_ok span]
      show ReadsText _ ((consumeUntil (recordFrom ⟨source, []⟩ position) (character ':') >>= _)
        position)
      rw [Scan.bind_of_ok consumed]
      rcases shape with ⟨isKey, advanced⟩ | ⟨isLine, advanced⟩
      · rw [isKey]
        apply readsText_recordedText_bind forward id
        intro isText key
        rw [Scan.bind_of_ok advanced]
        exact .of_ok isText
      · have cut := @Utf8.isText_append_ascii (Utf8.slice source.bytes position last)
          (Utf8.slice source.bytes moved source.stop) 0x3A (by decide)
        rw [isLine]
        apply readsText_recordedText_bind forward fun whole => (cut.mp whole).1
        intro keyIsText key
        rw [Scan.bind_of_ok advanced]
        show ReadsText _ ((recordedText (recordFrom ⟨source, []⟩ moved) >>= _) source.stop)
        apply readsText_recordedText_bind within fun whole => (cut.mp whole).2
        intro valueIsText value
        exact .of_ok (cut.mpr ⟨keyIsText, valueIsText⟩)

end View

end RecordScan
