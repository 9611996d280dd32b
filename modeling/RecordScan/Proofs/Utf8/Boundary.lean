import RecordScan.Proofs.Utf8.Scalar

/-!
Contract: the places between the scalars of a byte string.

Owns: scalar boundaries (`ScalarBoundary`), said by widths of the scalars before
them and not by the bytes around them; the proof that the test of one byte finds
exactly these places (`isBoundary_iff`); the slice between two boundaries; the
reader of one scalar at a boundary; and self-synchronisation: an encoding that
stands somewhere in a text stands at a boundary, and is that of the scalar there.
-/

namespace RecordScan.Utf8

/-! ## Boundaries -/

/-- An offset of a byte string that is UTF-8, as wide as the first few of its scalars. -/
def ScalarBoundary (bytes : List UInt8) (offset : Nat) : Prop :=
  ∃ before after : Text,
    decode bytes = .ok (before ++ after) ∧ offset = (encodeAll before).length

theorem scalarBoundary_zero {bytes : List UInt8} {text : Text}
    (decoded : decode bytes = .ok text) : ScalarBoundary bytes 0 :=
  ⟨[], text, decoded, rfl⟩

theorem scalarBoundary_length {bytes : List UInt8} {text : Text}
    (decoded : decode bytes = .ok text) : ScalarBoundary bytes bytes.length := by
  refine ⟨text, [], by rw [List.append_nil]; exact decoded, ?_⟩
  rw [(decode_eq_ok_iff.mp decoded).2]

theorem ScalarBoundary.le_length {bytes : List UInt8} {offset : Nat}
    (boundary : ScalarBoundary bytes offset) : offset ≤ bytes.length := by
  obtain ⟨before, after, decoded, rfl⟩ := boundary
  rw [(decode_eq_ok_iff.mp decoded).2, encodeAll_append, List.length_append]
  exact Nat.le_add_right _ _

theorem scalarBoundary_of_split {bytes : List UInt8} {before after : Text}
    (scalars : Text.IsScalar (before ++ after))
    (split : bytes = encodeAll before ++ encodeAll after) :
    ScalarBoundary bytes (encodeAll before).length :=
  ⟨before, after, decode_eq_ok_iff.mpr ⟨scalars, by rw [encodeAll_append, split]⟩, rfl⟩

private theorem eq_nil_of_encodeAll_length {text : Text}
    (empty : (encodeAll text).length = 0) : text = [] := by
  cases text with
  | nil => rfl
  | cons code text =>
      have positive := List.length_pos_iff.mpr (encodeCode_ne_nil code)
      rw [encodeAll_cons, List.length_append] at empty
      omega

/-- Two boundaries cut a byte string into three encodings. -/
theorem exists_split_of_boundaries {bytes : List UInt8} {first last : Nat}
    (firstBoundary : ScalarBoundary bytes first) (lastBoundary : ScalarBoundary bytes last)
    (ordered : first ≤ last) :
    ∃ before middle after : Text, Text.IsScalar (before ++ (middle ++ after)) ∧
      bytes = encodeAll before ++ (encodeAll middle ++ encodeAll after) ∧
      first = (encodeAll before).length ∧ last = first + (encodeAll middle).length := by
  obtain ⟨before, rest, decoded, firstWidth⟩ := firstBoundary
  obtain ⟨upTo, after, decodedAgain, lastWidth⟩ := lastBoundary
  have sameText : before ++ rest = upTo ++ after := by
    rw [decoded] at decodedAgain
    exact Except.ok.inj decodedAgain
  obtain ⟨scalars, encoded⟩ := decode_eq_ok_iff.mp decoded
  rcases List.append_eq_append_iff.mp sameText with
    ⟨middle, upToEq, restEq⟩ | ⟨extra, beforeEq, afterEq⟩
  · refine ⟨before, middle, after, restEq ▸ scalars, ?_, firstWidth, ?_⟩
    · rw [encoded, restEq, encodeAll_append, encodeAll_append]
    · rw [lastWidth, upToEq, encodeAll_append, List.length_append, firstWidth]
  · -- The later boundary has the shorter text before it, so the two are the same place.
    have noExtra : extra = [] := by
      apply eq_nil_of_encodeAll_length
      rw [firstWidth, lastWidth, beforeEq, encodeAll_append, List.length_append] at ordered
      omega
    refine ⟨before, [], rest, scalars, ?_, firstWidth, ?_⟩
    · rw [encoded, encodeAll_append, encodeAll_nil, List.nil_append]
    · rw [firstWidth, lastWidth, beforeEq, noExtra, List.append_nil, encodeAll_nil]
      rfl

/-! ## Slices -/

theorem slice_eq (bytes : Array UInt8) (start stop : Nat) :
    slice bytes start stop = (bytes.toList.drop start).take (stop - start) := by
  rw [slice, Array.toList_extract, List.extract_eq_take_drop]

theorem slice_append (bytes : Array UInt8) {start middle stop : Nat} (first : start ≤ middle)
    (second : middle ≤ stop) :
    slice bytes start stop = slice bytes start middle ++ slice bytes middle stop := by
  have length : stop - start = (middle - start) + (stop - middle) := by omega
  have place : middle = start + (middle - start) := by omega
  rw [slice_eq, slice_eq, slice_eq, length, List.take_add, List.drop_drop, ← place]

theorem slice_of_split {bytes : Array UInt8} {before middle after : List UInt8}
    (split : bytes.toList = before ++ (middle ++ after)) :
    slice bytes before.length (before.length + middle.length) = middle := by
  rw [slice_eq, split, List.drop_left, Nat.add_sub_cancel_left, List.take_left]

/-- The bytes between two boundaries are UTF-8. -/
theorem decodeFrom_slice {bytes : Array UInt8} {first last : Nat}
    (firstBoundary : ScalarBoundary bytes.toList first)
    (lastBoundary : ScalarBoundary bytes.toList last) (ordered : first ≤ last)
    (offset : Nat) :
    ∃ text : Text, decodeFrom offset (slice bytes first last) = .ok text := by
  obtain ⟨before, middle, after, scalars, split, firstWidth, lastWidth⟩ :=
    exists_split_of_boundaries firstBoundary lastBoundary ordered
  simp only [Text.isScalar_append] at scalars
  refine ⟨middle, ?_⟩
  rw [lastWidth, firstWidth, slice_of_split split]
  exact decodeFrom_encodeAll offset scalars.2.1

/-! ## The scalar at an offset -/

/-- Every offset inside an encoding falls into the bytes of one scalar. -/
theorem exists_scalar_around {text : Text} {offset : Nat}
    (inside : offset < (encodeAll text).length) :
    ∃ before code after, text = before ++ code :: after ∧
      (encodeAll before).length ≤ offset ∧
      offset < (encodeAll before).length + (encodeCode code).length := by
  induction text generalizing offset with
  | nil => simp at inside
  | cons code text inductionHypothesis =>
      by_cases here : offset < (encodeCode code).length
      · exact ⟨[], code, text, rfl, Nat.zero_le offset, by simpa using here⟩
      · have later : offset - (encodeCode code).length < (encodeAll text).length := by
          rw [encodeAll_cons, List.length_append] at inside
          omega
        obtain ⟨before, found, after, textEq, low, high⟩ := inductionHypothesis later
        refine ⟨code :: before, found, after, by rw [textEq, List.cons_append], ?_, ?_⟩ <;>
          rw [encodeAll_cons, List.length_append] <;> omega

/-- The first byte of a scalar is no continuation byte, and all its other bytes are. -/
theorem isContinuation_at (before after : List UInt8) {code : Code} (scalar : code.IsScalar)
    {offset : Nat} (low : before.length ≤ offset)
    (high : offset < before.length + (encodeCode code).length) :
    ∃ byte, (before ++ (encodeCode code ++ after))[offset]? = some byte ∧
      isContinuation byte.toNat = decide (before.length < offset) := by
  obtain ⟨lead, tail, sequence⟩ := exists_sequence scalar
  rw [sequence.encoded] at high ⊢
  rw [List.getElem?_append_right low]
  by_cases first : offset = before.length
  · refine ⟨lead, by simp [first], ?_⟩
    simp [sequence.lead_boundary, first]
  · obtain ⟨place, offsetEq⟩ : ∃ place, offset = before.length + (place + 1) :=
      ⟨offset - before.length - 1, by omega⟩
    have inTail : place < tail.length := by
      rw [offsetEq, List.length_cons] at high
      omega
    refine ⟨tail[place], ?_, ?_⟩
    · rw [offsetEq, Nat.add_sub_cancel_left, List.cons_append, List.getElem?_cons_succ,
        List.getElem?_append_left inTail, List.getElem?_eq_getElem inTail]
    · rw [sequence.tail_continuation _ (List.getElem_mem inTail)]
      exact (decide_eq_true (by omega)).symm

private theorem isBoundary_of_scalarBoundary {bytes : Array UInt8} {offset : Nat}
    (boundary : ScalarBoundary bytes.toList offset) : isBoundary bytes offset = true := by
  obtain ⟨before, after, decoded, width⟩ := boundary
  obtain ⟨scalars, encoded⟩ := decode_eq_ok_iff.mp decoded
  cases after with
  | nil =>
      have atEnd : bytes[offset]? = none := by
        rw [← Array.getElem?_toList, encoded, List.append_nil, List.getElem?_eq_none_iff]
        omega
      simp [isBoundary, atEnd]
  | cons code after =>
      simp only [Text.isScalar_append, Text.isScalar_cons] at scalars
      have positive := List.length_pos_iff.mpr (encodeCode_ne_nil code)
      have low : (encodeAll before).length ≤ offset := Nat.le_of_eq width.symm
      have high : offset < (encodeAll before).length + (encodeCode code).length := by omega
      obtain ⟨byte, found, continuation⟩ :=
        isContinuation_at _ (encodeAll after) scalars.2.1 low high
      have byteAt : bytes[offset]? = some byte := by
        rw [← Array.getElem?_toList, encoded, encodeAll_append, encodeAll_cons, found]
      simp only [isBoundary, byteAt, continuation, Bool.not_eq_true', decide_eq_false_iff_not]
      omega

private theorem scalarBoundary_of_isBoundary {bytes : Array UInt8} {text : Text} {offset : Nat}
    (decoded : decode bytes.toList = .ok text) (inside : offset ≤ bytes.size)
    (boundary : isBoundary bytes offset = true) : ScalarBoundary bytes.toList offset := by
  obtain ⟨scalars, encoded⟩ := decode_eq_ok_iff.mp decoded
  rcases Nat.lt_or_eq_of_le inside with before | atEnd
  · have inEncoding : offset < (encodeAll text).length := by
      rw [← encoded]
      exact before
    obtain ⟨earlier, code, later, textEq, low, high⟩ := exists_scalar_around inEncoding
    have split : bytes.toList = encodeAll earlier ++ (encodeCode code ++ encodeAll later) := by
      rw [encoded, textEq, encodeAll_append, encodeAll_cons]
    have parts := textEq ▸ scalars
    simp only [Text.isScalar_append, Text.isScalar_cons] at parts
    obtain ⟨byte, found, continuation⟩ :=
      isContinuation_at _ (encodeAll later) parts.2.1 low high
    have byteAt : bytes[offset]? = some byte := by
      rw [← Array.getElem?_toList, split, found]
    simp only [isBoundary, byteAt, continuation, Bool.not_eq_true', decide_eq_false_iff_not]
      at boundary
    exact ⟨earlier, code :: later, by rw [decoded, textEq], by omega⟩
  · rw [atEnd]
    exact scalarBoundary_length decoded

/-- The test of one byte finds the scalar boundaries of a byte string that is UTF-8. -/
theorem isBoundary_iff {bytes : Array UInt8} {text : Text} {offset : Nat}
    (decoded : decode bytes.toList = .ok text) (inside : offset ≤ bytes.size) :
    isBoundary bytes offset = true ↔ ScalarBoundary bytes.toList offset :=
  ⟨scalarBoundary_of_isBoundary decoded inside, isBoundary_of_scalarBoundary⟩

/-- At a boundary the reader of one scalar finds the scalar there, if its bytes end before the
bound. -/
theorem decodeScalar_of_split {bytes : Array UInt8} {before after : List UInt8} {code : Code}
    {stop : Nat} (scalar : code.IsScalar)
    (split : bytes.toList = before ++ (encodeCode code ++ after))
    (fits : before.length + (encodeCode code).length ≤ stop) :
    decodeScalar bytes before.length stop = some (.ok (code, (encodeCode code).length)) := by
  obtain ⟨lead, tail, sequence⟩ := exists_sequence scalar
  have leadAt : bytes[before.length]? = some lead := by
    rw [← Array.getElem?_toList, split, sequence.encoded]
    simp
  have widthEq : width lead.toNat = (encodeCode code).length := by
    rw [sequence.width_lead, sequence.encoded, List.length_cons]
  rw [decodeScalar, leadAt, Option.map_some]
  split
  · next announced =>
      rw [sequence.width_lead] at announced
      cases announced
  · next announced =>
      have noTail : tail = [] := by
        rw [sequence.width_lead] at announced
        exact List.length_eq_zero_iff.mp (Nat.succ.inj announced)
      rw [sequence.alone noTail, ← widthEq, announced]
  · rw [widthEq, if_neg (Nat.not_lt.mpr fits), slice_of_split split]
    have decoded : decode (encodeCode code) = .ok [code] :=
      decode_eq_ok_iff.mpr ⟨by simp [scalar], by simp⟩
    rw [decoded]

/-! ## Self-synchronisation -/

/-- Encodings in front of two byte strings that are the same are those of the same scalar. -/
theorem encodeCode_append_inj {first second : Code} {firstRest secondRest : List UInt8}
    (firstScalar : first.IsScalar) (secondScalar : second.IsScalar)
    (same : encodeCode first ++ firstRest = encodeCode second ++ secondRest) :
    first = second ∧ firstRest = secondRest := by
  obtain ⟨firstLead, firstTail, firstSequence⟩ := exists_sequence firstScalar
  obtain ⟨secondLead, secondTail, secondSequence⟩ := exists_sequence secondScalar
  rw [firstSequence.encoded, secondSequence.encoded, List.cons_append, List.cons_append,
    List.cons.injEq] at same
  have read := secondSequence.read secondRest
  rw [← same.1, ← same.2, firstSequence.read firstRest, Except.ok.injEq, Prod.mk.injEq] at read
  exact read

/-- Wherever the bytes of a unit stand in a text, they start at a boundary. This holds also of
the bytes that numbers above the last code point have. -/
theorem scalarBoundary_of_isPrefix {bytes : Array UInt8} {text : Text} {code : Code}
    {offset : Nat} (decoded : decode bytes.toList = .ok text)
    (stands : encodeCode code <+: bytes.toList.drop offset) :
    ScalarBoundary bytes.toList offset := by
  obtain ⟨lead, tail, encoded, shape⟩ := encodeCode_eq_lead_cons code
  obtain ⟨rest, bytesEq⟩ := stands
  have byteAt (place : Nat) : bytes[offset + place]? = (lead :: tail ++ rest)[place]? := by
    rw [← Array.getElem?_toList, ← List.getElem?_drop, ← bytesEq, encoded]
  have leadAt : bytes[offset]? = some lead := byteAt 0
  have inside : offset < bytes.size := (Array.getElem?_eq_some_iff.mp leadAt).1
  rcases shape with leads | ⟨three, continues⟩
  · apply (isBoundary_iff decoded (Nat.le_of_lt inside)).mp
    simp [isBoundary, leadAt, leads]
  · -- Four continuation bytes in a row would reach past the end of the scalar around them.
    obtain ⟨scalars, bytesEncoded⟩ := decode_eq_ok_iff.mp decoded
    have inEncoding : offset < (encodeAll text).length := bytesEncoded ▸ inside
    obtain ⟨earlier, around, later, textEq, low, high⟩ := exists_scalar_around inEncoding
    have short := encodeCode_length_le around
    have split : bytes.toList = encodeAll (earlier ++ [around]) ++ encodeAll later := by
      rw [bytesEncoded, textEq, ← encodeAll_append, List.append_assoc, List.singleton_append]
    by_cases atStart : offset = (encodeAll earlier).length
    · exact ⟨earlier, around :: later, by rw [decoded, textEq], atStart⟩
    · have nextBoundary := scalarBoundary_of_split (by
        rw [List.append_assoc, List.singleton_append, ← textEq]
        exact scalars) split
      obtain ⟨place, nextEq⟩ : ∃ place,
          (encodeAll (earlier ++ [around])).length = offset + (place + 1) := by
        refine ⟨(encodeAll (earlier ++ [around])).length - offset - 1, ?_⟩
        simp only [encodeAll_append, encodeAll_cons, encodeAll_nil, List.append_nil,
          List.length_append]
        omega
      have inTail : place < tail.length := by
        simp only [encodeAll_append, encodeAll_cons, encodeAll_nil, List.append_nil,
          List.length_append] at nextEq
        omega
      have nextAt : bytes[offset + (place + 1)]? = some tail[place] := by
        rw [byteAt, List.cons_append, List.getElem?_cons_succ, List.getElem?_append_left inTail,
          List.getElem?_eq_getElem inTail]
      have nextInside : offset + (place + 1) < bytes.size :=
        (Array.getElem?_eq_some_iff.mp nextAt).1
      have nextTest :=
        (isBoundary_iff decoded (Nat.le_of_lt nextInside)).mpr (nextEq ▸ nextBoundary)
      simp only [isBoundary, nextAt, continues _ (List.getElem_mem inTail)] at nextTest
      cases nextTest

end RecordScan.Utf8
