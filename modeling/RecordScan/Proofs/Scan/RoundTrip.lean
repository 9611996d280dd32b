import Mathlib.Data.List.TakeWhile
import RecordScan.Proofs.Scan.Position
import RecordScan.Proofs.Utf8.Incremental
import RecordScan.Scan.View

/-!
Contract: a text is read back from its encoding, unit by unit.

Owns: moves that are made a number of times (`Scan.times`); what such moves over a bare
source answer and where they end (`Source.Admits.times_advance`); sources that spell a
text (`Source.Spells`); and the sources over a text, over its encoding, and over any
bytes that are UTF-8, all of which spell what they encode.

Widths are those of strings (`String.utf8ByteSize`) and not those of the encoder under
proof; `RecordScan.Proofs.Utf8.Incremental` ties the two.
-/

namespace RecordScan

/-! ## Texts without surrogates -/

theorem Text.isScalar_iff {text : Text} :
    text.IsScalar ↔ (∀ code ∈ text, code ≤ Code.greatest) ∧ text.hasSurrogate = false := by
  unfold Text.IsScalar Code.IsScalar Text.hasSurrogate
  simp only [List.any_eq_false, Bool.not_eq_true]
  exact forall₂_and

namespace Utf8

theorem encodeText_of_isScalar {text : Text} (scalars : text.IsScalar) :
    encodeText text = .ok (encodeAll text) := by
  have noSurrogate := (Text.isScalar_iff.mp scalars).2
  simp [encodeText, encode, noSurrogate]

/-- The part of a text before its first surrogate can be encoded, and the defect stands right
after the bytes of that part. -/
theorem encode_of_hasSurrogate {text : Text}
    (codePoints : ∀ code ∈ text, code ≤ Code.greatest) (surrogate : text.hasSurrogate = true) :
    encode text = .error
      ⟨(Text.toString (text.takeWhile fun code => !code.isSurrogate)).utf8ByteSize,
        .surrogate⟩ := by
  have before : Text.IsScalar (text.takeWhile fun code => !code.isSurrogate) := by
    intro code member
    refine ⟨codePoints code ((List.takeWhile_prefix _).subset member), ?_⟩
    simpa using List.mem_takeWhile_imp member
  rw [encode, if_pos surrogate, length_encodeAll before]

end Utf8

/-! ## Moves again and again -/

/-- Makes a move a number of times, and answers what each of them answered. -/
def Scan.times (move : Scan (Option Code)) : (count : Nat) → Scan (List (Option Code))
  | 0 => return []
  | count + 1 => do
      let first ← move
      let others ← times move count
      return first :: others

namespace Source

variable {source : Source} {position : Nat}

/-- Advancing answers the units ahead, one by one, and nothing once they are spent. It ends past
the bytes of the units that it answered. -/
theorem Admits.times_advance (admits : source.Admits position) (count : Nat) :
    Scan.times source.advance count position =
      (.ok ((List.range count).map fun index => (source.unitsFrom position)[index]?),
        position + (((source.unitsFrom position).take count).flatMap
          source.mode.unitBytes).length) := by
  induction count generalizing position with
  | zero => rfl
  | succ count inductionHypothesis =>
      rw [Scan.times, List.range_succ_eq_map, List.map_cons, List.map_map]
      rcases Nat.lt_or_eq_of_le admits.le_stop with before | atEnd
      · obtain ⟨unit, found, advanced⟩ := admits.advance_of_lt before
        rw [Scan.bind_of_ok advanced, Scan.bind_of_ok (inductionHypothesis found.admits_next),
          found.unitsFrom_eq]
        simp [Function.comp_def, Mode.unitWidth, Nat.add_assoc]
      · -- At the end a move answers nothing and stays, so the others start there as well.
        subst atEnd
        rw [Scan.bind_of_ok source.advance_stop, Scan.bind_of_ok (inductionHypothesis admits),
          source.unitsFrom_stop]
        simp [Function.comp_def]

/-- Taken one by one from the start of a source, its units are those of a text; after some of them
the position is as wide as that part of the text. -/
def Spells (source : Source) (text : Text) : Prop :=
  ∀ count, Scan.times (View.advance ⟨source, []⟩) count source.start =
    (.ok ((List.range count).map fun index => text[index]?),
      (Text.toString (text.take count)).utf8ByteSize)

/-- A source over all bytes of an encoding spells the text that is encoded. -/
theorem spells_encodeAll {text : Text} (scalars : text.IsScalar) :
    Spells ⟨.text, (Utf8.encodeAll text).toArray, 0, (Utf8.encodeAll text).length⟩ text := by
  intro count
  have codePoints := (Text.isScalar_iff.mp scalars).1
  have accepted := ofText_eq scalars
  have admits := (@wellFormed_ofInput .text (.text text) _ (by rintro _ ⟨⟩; exact codePoints)
    accepted).admits_start
  have units := (unitsFrom_ofText codePoints accepted).2
  have advanced := admits.times_advance count
  have part : Text.IsScalar (text.take count) := fun code member =>
    scalars code (List.mem_of_mem_take member)
  rw [← Utf8.length_encodeAll part, View.advance, View.advanceThrough, advanced]
  simp only [units, Nat.zero_add]
  rfl

theorem ofUtf8_eq {bytes : List UInt8} {text : Text} (decoded : Utf8.decode bytes = .ok text) :
    ofUtf8 bytes = .ok ⟨.text, bytes.toArray, 0, bytes.length⟩ := by
  rw [ofUtf8, decoded]

end Source

/-! ## There and back -/

/-- **Decoding undoes encoding.** A text without surrogates and its encoding are the same source,
and advancing over it answers the text, code point by code point, and then nothing; after some of
them the position is as wide as they are in UTF-8. Conversely every byte string that is accepted as
text is the encoding of what advancing over it answers. A text with a surrogate is refused, by the
encoder and as a source, at the width of the part before the first surrogate. -/
theorem Source.decoding_undoes_encoding (text : Text)
    (codePoints : ∀ code ∈ text, code ≤ Code.greatest) (bytes : List UInt8) :
    (text.hasSurrogate = false → ∃ encoded source, Utf8.encodeText text = .ok encoded ∧
      ofInput .text (.text text) = .ok source ∧ ofInput .text (.bytes encoded) = .ok source ∧
      source.bytes.toList = encoded ∧ source.Spells text) ∧
    (∀ source, ofInput .text (.bytes bytes) = .ok source →
      ∃ found, source.Spells found ∧ Utf8.encodeText found = .ok bytes) ∧
    (text.hasSurrogate = true →
      let before := Text.toString (text.takeWhile fun code => !code.isSurrogate)
      Utf8.encodeText text = .error (.utf8 before.utf8ByteSize .surrogate) ∧
        ofInput .text (.text text) = .error (.utf8 before.utf8ByteSize .surrogate)) := by
  refine ⟨fun noSurrogate => ?_, fun source accepted => ?_, fun surrogate => ?_⟩
  · have scalars := Text.isScalar_iff.mpr ⟨codePoints, noSurrogate⟩
    have decoded := Utf8.decode_eq_ok_iff.mpr ⟨scalars, rfl⟩
    exact ⟨Utf8.encodeAll text, _, Utf8.encodeText_of_isScalar scalars, ofText_eq scalars,
      ofUtf8_eq decoded, List.toList_toArray, spells_encodeAll scalars⟩
  · cases decoded : Utf8.decode bytes with
    | error defect =>
        simp only [ofInput, ofUtf8, decoded] at accepted
        cases accepted
    | ok found =>
        obtain ⟨scalars, encoded⟩ := Utf8.decode_eq_ok_iff.mp decoded
        have whole := ofUtf8_eq decoded
        rw [ofInput, whole] at accepted
        cases accepted
        rw [encoded]
        exact ⟨found, spells_encodeAll scalars, Utf8.encodeText_of_isScalar scalars⟩
  · have refused := Utf8.encode_of_hasSurrogate codePoints surrogate
    constructor
    · rw [Utf8.encodeText, refused]
      rfl
    · rw [ofInput, ofText, refused]
      rfl

/-- The last code point of each width. Five calls answer them and then nothing, and end past their
ten bytes; with half a surrogate pair after them the text is refused at that place. -/
theorem Source.decoding_undoes_encoding_widths :
    let text : Text := [0x7F, 0x7FF, 0xFFFF, 0x10FFFF]
    (∃ source, ofInput .text (.text text) = .ok source ∧ source.Spells text ∧
      Scan.times (View.advance ⟨source, []⟩) 5 source.start =
        (.ok [some 0x7F, some 0x7FF, some 0xFFFF, some 0x10FFFF, none], 10)) ∧
      ofInput .text (.text (text ++ [0xD800, 0x61])) = .error (.utf8 10 .surrogate) := by
  intro text
  have codePoints : ∀ code ∈ text ++ [0xD800, 0x61], code ≤ Code.greatest := by decide
  obtain ⟨readBack, -, -⟩ := decoding_undoes_encoding text (by decide) []
  obtain ⟨-, -, refusal⟩ := decoding_undoes_encoding (text ++ [0xD800, 0x61]) codePoints []
  obtain ⟨encoded, source, -, accepted, -, -, spells⟩ := readBack rfl
  refine ⟨⟨source, accepted, spells, ?_⟩, ?_⟩
  · exact spells 5
  · exact (refusal rfl).2

end RecordScan
