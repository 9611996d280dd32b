import Mathlib.Algebra.GroupWithZero.Nat
import RecordScan.Proofs.Utf8.Incremental
import RecordScan.Proofs.Scan.Keeping

/-!
Contract: where a byte string that is UTF-8 may be cut, and where a text may be narrowed.

Owns: the places at which both sides of a cut are UTF-8 (`scalarBoundary_iff_cut`), the same
places as widths of the first few characters (`scalarBoundary_iff_width`), the cut into three
(`scalarBoundary_both_iff`), and narrowing a text as two tests of one byte
(`Source.bounded_text`).

Does not own: the test of one byte against the boundaries (`Utf8.isBoundary_iff`), which is where
the structure of the encoding goes in. Here validity and width are those of strings, which are
defined elsewhere and by other means.
-/

namespace RecordScan

namespace Utf8

/-! ## Cuts -/

theorem isValidUTF8_append {first second : List UInt8}
    (firstValid : first.toByteArray.IsValidUTF8) (secondValid : second.toByteArray.IsValidUTF8) :
    (first ++ second).toByteArray.IsValidUTF8 := by
  rw [List.toByteArray_append]
  exact firstValid.append secondValid

/-- A boundary cuts a byte string into two that are UTF-8, and every such cut is made at one. -/
theorem scalarBoundary_iff_cut {bytes : List UInt8} {offset : Nat}
    (inside : offset ≤ bytes.length) :
    ScalarBoundary bytes offset ↔
      (bytes.take offset).toByteArray.IsValidUTF8 ∧
        (bytes.drop offset).toByteArray.IsValidUTF8 := by
  constructor
  · rintro ⟨before, after, decoded, rfl⟩
    obtain ⟨scalars, encoded⟩ := decode_eq_ok_iff.mp decoded
    obtain ⟨beforeScalars, afterScalars⟩ := (Text.isScalar_append before after).mp scalars
    rw [encoded, encodeAll_append, List.take_left, List.drop_left]
    exact ⟨isValidUTF8_encodeAll beforeScalars, isValidUTF8_encodeAll afterScalars⟩
  · rintro ⟨takeValid, dropValid⟩
    obtain ⟨before, beforeDecoded⟩ := isValidUTF8_iff.mp takeValid
    obtain ⟨after, afterDecoded⟩ := isValidUTF8_iff.mp dropValid
    obtain ⟨beforeScalars, beforeEq⟩ := decode_eq_ok_iff.mp beforeDecoded
    obtain ⟨afterScalars, afterEq⟩ := decode_eq_ok_iff.mp afterDecoded
    have split : bytes = encodeAll before ++ encodeAll after := by
      rw [← beforeEq, ← afterEq, List.take_append_drop]
    have width : (encodeAll before).length = offset := by
      rw [← beforeEq, List.length_take_of_le inside]
    rw [← width]
    exact scalarBoundary_of_split
      ((Text.isScalar_append before after).mpr ⟨beforeScalars, afterScalars⟩) split

section Slices

variable (bytes : Array UInt8) {first last : Nat} (ordered : first ≤ last)

include ordered

theorem take_append_slice :
    bytes.toList.take first ++ slice bytes first last = bytes.toList.take last := by
  rw [slice_eq, ← List.take_add, Nat.add_sub_cancel' ordered]

theorem slice_append_drop :
    slice bytes first last ++ bytes.toList.drop last = bytes.toList.drop first := by
  have place : bytes.toList.drop last = (bytes.toList.drop first).drop (last - first) := by
    rw [List.drop_drop, Nat.add_sub_cancel' ordered]
  rw [slice_eq, place, List.take_append_drop]

end Slices

/-- Two places of a byte string are boundaries exactly if all three parts between them and the
ends are UTF-8. -/
theorem scalarBoundary_both_iff {bytes : Array UInt8} {first last : Nat} (ordered : first ≤ last)
    (inside : last ≤ bytes.size) :
    ScalarBoundary bytes.toList first ∧ ScalarBoundary bytes.toList last ↔
      (slice bytes first last).toByteArray.IsValidUTF8 ∧
        (bytes.toList.take first).toByteArray.IsValidUTF8 ∧
        (bytes.toList.drop last).toByteArray.IsValidUTF8 := by
  constructor
  · rintro ⟨firstBoundary, lastBoundary⟩
    obtain ⟨text, decoded⟩ := decodeFrom_slice firstBoundary lastBoundary ordered 0
    exact ⟨isValidUTF8_iff.mpr ⟨text, decoded⟩,
      ((scalarBoundary_iff_cut firstBoundary.le_length).mp firstBoundary).1,
      ((scalarBoundary_iff_cut lastBoundary.le_length).mp lastBoundary).2⟩
  · rintro ⟨middleValid, takeValid, dropValid⟩
    constructor
    · refine (scalarBoundary_iff_cut (Nat.le_trans ordered inside)).mpr ⟨takeValid, ?_⟩
      rw [← slice_append_drop bytes ordered]
      exact isValidUTF8_append middleValid dropValid
    · refine (scalarBoundary_iff_cut inside).mpr ⟨?_, dropValid⟩
      rw [← take_append_slice bytes ordered]
      exact isValidUTF8_append takeValid middleValid

/-! ## Widths of characters -/

theorem encodeAll_chars (chars : List Char) :
    encodeAll (chars.map Char.toNat) = chars.flatMap String.utf8EncodeChar := by
  simp only [encodeAll, List.flatMap_map, encodeCode_toNat]

/-- A text is as wide as its characters together. -/
theorem length_encodeAll_chars (chars : List Char) :
    (encodeAll (chars.map Char.toNat)).length = (chars.map Char.utf8Size).sum := by
  simp only [encodeAll_chars, List.length_flatMap, String.length_utf8EncodeChar]

/-- Decoding gives the characters of the string that holds the bytes. -/
theorem decode_fromUTF8 {bytes : List UInt8} (valid : bytes.toByteArray.IsValidUTF8) :
    decode bytes = .ok ((String.fromUTF8 bytes.toByteArray valid).toList.map Char.toNat) := by
  rw [decode_eq_ok_iff]
  constructor
  · intro code member
    obtain ⟨char, -, rfl⟩ := List.mem_map.mp member
    exact isScalar_toNat char
  · have held : (String.fromUTF8 bytes.toByteArray valid).toList.utf8Encode =
        bytes.toByteArray := String.utf8Encode_toList
    rw [List.utf8Encode, List.toByteArray_inj] at held
    rw [encodeAll_chars, held]

/-- A boundary is as far into a byte string as some of its first characters are wide. -/
theorem scalarBoundary_iff_width {bytes : List UInt8} {offset : Nat}
    (valid : bytes.toByteArray.IsValidUTF8) :
    ScalarBoundary bytes offset ↔
      ∃ before, before <+: (String.fromUTF8 bytes.toByteArray valid).toList ∧
        offset = (before.map Char.utf8Size).sum := by
  constructor
  · rintro ⟨before, after, decoded, rfl⟩
    rw [decode_fromUTF8 valid, Except.ok.injEq] at decoded
    obtain ⟨chars, rest, held, rfl, -⟩ := List.map_eq_append_iff.mp decoded
    exact ⟨chars, ⟨rest, held.symm⟩, length_encodeAll_chars chars⟩
  · rintro ⟨chars, ⟨rest, held⟩, rfl⟩
    refine ⟨chars.map Char.toNat, rest.map Char.toNat, ?_, (length_encodeAll_chars chars).symm⟩
    rw [decode_fromUTF8 valid, ← held, List.map_append]

/-- The entry point that takes any integer makes the test of one byte. -/
theorem isBoundaryAt_natCast {bytes : Array UInt8} {position : Nat} (inside : position ≤ bytes.size)
    (index : (position : Int) < indexBound) :
    isBoundaryAt bytes position = .ok (isBoundary bytes position) := by
  unfold isBoundaryAt
  rcases Nat.lt_or_eq_of_le inside with before | atEnd
  · have within : ¬ (bytes.size : Int) ≤ position := by omega
    rw [if_neg within, locate_natCast before index]
    rfl
  · have nothing : bytes[position]? = none := Array.getElem?_eq_none_iff.mpr (by omega)
    rw [if_pos (by omega), isBoundary, nothing]

end Utf8

/-! ## Narrowing a text -/

theorem Source.checkOffset_text {source : Source} (isText : source.mode = .text) (offset : Nat) :
    source.checkOffset offset =
      if Utf8.isBoundary source.bytes offset then .ok ()
      else .error (.utf8 offset .insideSequence) := by
  simp only [checkOffset, isText]

theorem Source.bounded_text {source : Source} {first last : Nat} (isText : source.mode = .text)
    (afterStart : source.start ≤ first) (ordered : first ≤ last)
    (beforeStop : last ≤ source.stop) :
    source.bounded first last =
      if Utf8.isBoundary source.bytes first then
        if Utf8.isBoundary source.bytes last then .ok (source.narrowed first last)
        else .error (.utf8 last .insideSequence)
      else .error (.utf8 first .insideSequence) := by
  have inBounds : (source.start : Int) ≤ first ∧ (first : Int) ≤ last ∧
      (last : Int) ≤ source.stop := by omega
  rw [bounded, if_pos inBounds, Int.toNat_natCast, Int.toNat_natCast, checkOffset_text isText,
    checkOffset_text isText]
  split_ifs <;> rfl

namespace View

variable {view : View} {first last : Nat}

/-- A text is narrowed to bounds at two boundaries; otherwise the first end that is none is
named. -/
theorem bounded_text (isText : view.mode = .text) (afterStart : view.source.start ≤ first)
    (ordered : first ≤ last) (beforeStop : last ≤ view.source.stop) :
    (Utf8.isBoundary view.source.bytes first = true ∧
        Utf8.isBoundary view.source.bytes last = true ∧
        view.bounded first last = .ok (view.part first last)) ∨
      ∃ place, (place = first ∨ place = last) ∧
        Utf8.isBoundary view.source.bytes place = false ∧
        view.bounded first last = .error (.utf8 place .insideSequence) := by
  unfold bounded
  rw [Source.bounded_text isText afterStart ordered beforeStop]
  cases firstTest : Utf8.isBoundary view.source.bytes first with
  | false => exact .inr ⟨first, .inl rfl, firstTest, rfl⟩
  | true =>
      cases lastTest : Utf8.isBoundary view.source.bytes last with
      | false => exact .inr ⟨last, .inr rfl, lastTest, rfl⟩
      | true => exact .inl ⟨rfl, rfl, rfl⟩

/-- **The test of one byte is exact.** In a byte string that is UTF-8 a position passes the test of
the byte there exactly if the bytes before it and the bytes from it on are both UTF-8, and exactly
if it is as wide as some of the first characters together; the entry point that takes any integer
makes this test. So a view of such a text is narrowed to bounds inside its own exactly if the bytes
between them, those before and those after are all UTF-8, and is otherwise refused by one of the two
ends. -/
theorem boundary_test_is_exact (bytes : List UInt8) (valid : bytes.toByteArray.IsValidUTF8) :
    (∀ position : Nat, position ≤ bytes.length →
      (Utf8.isBoundary bytes.toArray position = true ↔
        (bytes.take position).toByteArray.IsValidUTF8 ∧
          (bytes.drop position).toByteArray.IsValidUTF8) ∧
      (Utf8.isBoundary bytes.toArray position = true ↔
        ∃ before, before <+: (String.fromUTF8 bytes.toByteArray valid).toList ∧
          position = (before.map Char.utf8Size).sum) ∧
      ((position : Int) < Utf8.indexBound →
        Utf8.isBoundaryAt bytes.toArray position =
          .ok (Utf8.isBoundary bytes.toArray position))) ∧
    ∀ (view : View) (first last : Nat), view.mode = .text → view.source.bytes = bytes.toArray →
      view.source.stop ≤ bytes.length → view.source.start ≤ first → first ≤ last →
      last ≤ view.source.stop →
      (view.bounded first last = .ok (view.part first last) ↔
        (Utf8.slice bytes.toArray first last).toByteArray.IsValidUTF8 ∧
          (bytes.take first).toByteArray.IsValidUTF8 ∧
          (bytes.drop last).toByteArray.IsValidUTF8) ∧
      ((∃ place, (place = first ∨ place = last) ∧
          view.bounded first last = .error (.utf8 place .insideSequence)) ↔
        ¬ ((Utf8.slice bytes.toArray first last).toByteArray.IsValidUTF8 ∧
          (bytes.take first).toByteArray.IsValidUTF8 ∧
          (bytes.drop last).toByteArray.IsValidUTF8)) := by
  have exactTest {position : Nat} (inside : position ≤ bytes.length) :
      Utf8.isBoundary bytes.toArray position = true ↔ Utf8.ScalarBoundary bytes position :=
    @Utf8.isBoundary_iff bytes.toArray _ _ (Utf8.decode_fromUTF8 valid) inside
  constructor
  · intro position inside
    refine ⟨?_, ?_, fun index => Utf8.isBoundaryAt_natCast inside index⟩
    · rw [exactTest inside, Utf8.scalarBoundary_iff_cut inside]
    · rw [exactTest inside, Utf8.scalarBoundary_iff_width valid]
  · intro view first last isText sameBytes held afterStart ordered beforeStop
    have inside : last ≤ bytes.length := Nat.le_trans beforeStop held
    have cutTwice := @Utf8.scalarBoundary_both_iff bytes.toArray _ _ ordered inside
    rw [← exactTest (Nat.le_trans ordered inside), ← exactTest inside] at cutTwice
    rw [← cutTwice]
    rcases bounded_text isText afterStart ordered beforeStop with
      ⟨firstPasses, lastPasses, answer⟩ | ⟨place, isEnd, fails, answer⟩
    · rw [sameBytes] at firstPasses lastPasses
      simp [answer, firstPasses, lastPasses]
    · rw [sameBytes] at fails
      have notBoth : ¬ (Utf8.isBoundary bytes.toArray first = true ∧
          Utf8.isBoundary bytes.toArray last = true) := by
        rcases isEnd with rfl | rfl <;> simp [fails]
      simp only [answer, notBoth, reduceCtorEq, not_false_eq_true, iff_true, true_and]
      exact ⟨place, isEnd, rfl⟩

/-- Characters of one, two and three bytes: the bounds of the second are taken, and a bound between
its two bytes is refused, since the bytes up to there are no encoding. -/
theorem boundary_test_is_exact_two_bytes :
    let bytes : List UInt8 := [0x61, 0xC3, 0xA9, 0xE2, 0x82, 0xAC]
    let view : View := ⟨⟨.text, bytes.toArray, 0, 6⟩, [.recording 0]⟩
    bytes.toByteArray.IsValidUTF8 ∧
      view.bounded 1 3 = .ok (view.part 1 3) ∧
      (∃ place : Nat, (place = 1 ∨ place = 2) ∧
        view.bounded 1 2 = .error (.utf8 place .insideSequence)) ∧
      ¬ ((bytes.take 2).toByteArray.IsValidUTF8 ∧ (bytes.drop 2).toByteArray.IsValidUTF8) := by
  intro bytes view
  have encoded (text : Text) (scalars : text.IsScalar) := Utf8.isValidUTF8_encodeAll scalars
  have valid : bytes.toByteArray.IsValidUTF8 :=
    encoded [0x61, 0xE9, 0x20AC] (by simp [Code.isScalar_iff])
  obtain ⟨tests, cuts⟩ := boundary_test_is_exact bytes valid
  have between : ¬ ((bytes.take 2).toByteArray.IsValidUTF8 ∧
      (bytes.drop 2).toByteArray.IsValidUTF8) := by
    rw [← (tests 2 (by decide)).1]
    decide
  refine ⟨valid, ?_, ?_, between⟩
  · refine (cuts view 1 3 rfl rfl (by decide) (by decide) (by decide) (by decide)).1.mpr ?_
    exact ⟨encoded [0xE9] (by simp [Code.isScalar_iff]),
      encoded [0x61] (by simp [Code.isScalar_iff]),
      encoded [0x20AC] (by simp [Code.isScalar_iff])⟩
  · refine (cuts view 1 2 rfl rfl (by decide) (by decide) (by decide) (by decide)).2.mpr ?_
    rintro ⟨middleValid, takeValid, dropValid⟩
    exact between ⟨Utf8.isValidUTF8_append takeValid middleValid, dropValid⟩

end View

end RecordScan
