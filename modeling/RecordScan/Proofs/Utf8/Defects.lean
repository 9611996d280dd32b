import RecordScan.Proofs.Utf8.Incremental

/-!
Contract: where a part of a buffer stops being UTF-8.

Owns: decoding after bytes that are an encoding (`decodeFrom_append`), the defect that the strict
reader names (`decodeFrom_eq_error_iff`), and the same for the bytes between two places of a buffer
(`decodeFrom_slice_eq_error_iff`), where the reader of one scalar is asked about the whole buffer.

A scalar that stands in the buffer may be cut by the end of the part. The reader of one scalar is
told this end, so it is refused there as well: of the buffer it looks at the bytes before its bound
only (`decodeScalar_extract`).
-/

namespace RecordScan.Utf8

/-! ## The first defect -/

/-- What stands after an encoding is decoded as if it stood alone, at its own offset. -/
theorem decodeFrom_append (offset : Nat) {text : Text} (scalars : text.IsScalar)
    (rest : List UInt8) :
    decodeFrom offset (encodeAll text ++ rest) =
      (decodeFrom (offset + (encodeAll text).length) rest).map (text ++ ·) := by
  induction text generalizing offset with
  | nil =>
      simp only [encodeAll_nil, List.nil_append, List.length_nil, Nat.add_zero]
      cases decodeFrom offset rest <;> rfl
  | cons code text inductionHypothesis =>
      obtain ⟨scalar, textScalars⟩ := (Text.isScalar_cons code text).mp scalars
      obtain ⟨lead, tail, sequence⟩ := exists_sequence scalar
      have place : offset + (encodeAll (code :: text)).length =
          offset + width lead.toNat + (encodeAll text).length := by
        rw [encodeAll_cons, List.length_append, sequence.encoded, sequence.width_lead,
          List.length_cons]
        omega
      rw [place, encodeAll_cons, sequence.encoded, List.append_assoc, List.cons_append,
        decodeFrom_of_read offset (sequence.read (encodeAll text ++ rest)),
        inductionHypothesis _ textScalars]
      cases decodeFrom (offset + width lead.toNat + (encodeAll text).length) rest <;> rfl

private theorem exists_split_of_refused {offset : Nat} {bytes : List UInt8} {defect : Defect}
    (refused : decodeFrom offset bytes = .error defect) :
    ∃ text lead rest, Text.IsScalar text ∧ bytes = encodeAll text ++ lead :: rest ∧
      readScalar lead rest = .error defect.reason ∧
      defect.offset = offset + (encodeAll text).length := by
  fun_induction decodeFrom offset bytes with
  | case1 => cases refused
  | case2 offset lead rest reason strict =>
      cases refused
      exact ⟨[], lead, rest, Text.isScalar_nil, rfl, strict, rfl⟩
  | case3 offset lead rest code later strict found failed inductionHypothesis =>
      cases refused
      obtain ⟨text, next, after, scalars, laterEq, stuck, place⟩ := inductionHypothesis failed
      obtain ⟨scalar, taken⟩ := encodeCode_of_readScalar strict
      refine ⟨code :: text, next, after, (Text.isScalar_cons code text).mpr ⟨scalar, scalars⟩, ?_,
        stuck, ?_⟩
      · rw [taken, laterEq, encodeAll_cons, List.append_assoc]
      · rw [place, encodeAll_cons, List.length_append, length_of_readScalar strict, Nat.add_assoc]
  | case4 => cases refused

/-- The strict reader is refused exactly where an encoding ends and no scalar follows. -/
theorem decodeFrom_eq_error_iff {offset : Nat} {bytes : List UInt8} {defect : Defect} :
    decodeFrom offset bytes = .error defect ↔
      ∃ text lead rest, Text.IsScalar text ∧ bytes = encodeAll text ++ lead :: rest ∧
        readScalar lead rest = .error defect.reason ∧
        defect.offset = offset + (encodeAll text).length := by
  constructor
  · exact exists_split_of_refused
  · rintro ⟨text, lead, rest, scalars, rfl, stuck, place⟩
    rw [decodeFrom_append offset scalars, decodeFrom_of_defect _ stuck, ← place]
    rfl

/-! ## A part of a buffer -/

/-- Up to a place of a buffer, what is ahead is a slice of it. -/
theorem drop_extract (bytes : Array UInt8) (start stop : Nat) :
    (bytes.extract 0 stop).toList.drop start = slice bytes start stop := by
  rw [slice_eq, Array.toList_extract, List.extract_eq_take_drop, List.drop_zero, Nat.sub_zero,
    List.drop_take]

theorem slice_extract (bytes : Array UInt8) {start last stop : Nat} (before : last ≤ stop) :
    slice (bytes.extract 0 stop) start last = slice bytes start last := by
  rw [slice_eq, drop_extract, slice_eq, slice_eq, List.take_take]
  congr 1
  omega

section Part

variable {bytes : Array UInt8} {stop : Nat} (inside : stop ≤ bytes.size)

include inside

theorem length_slice (start : Nat) : (slice bytes start stop).length = stop - start := by
  rw [slice_eq, List.length_take, List.length_drop, Array.length_toList]
  omega

theorem size_extract_zero : (bytes.extract 0 stop).size = stop := by
  rw [Array.size_extract, Nat.min_eq_left inside, Nat.sub_zero]

/-- The reader of one scalar looks at no byte from its bound on. -/
theorem decodeScalar_extract {position : Nat} (before : position < stop) :
    decodeScalar (bytes.extract 0 stop) position stop = decodeScalar bytes position stop := by
  have sameLead : (bytes.extract 0 stop)[position]? = bytes[position]? := by
    rw [Array.getElem?_extract, Nat.min_eq_left inside, Nat.sub_zero, if_pos before, Nat.zero_add]
  unfold decodeScalar
  rw [sameLead]
  congr 1
  funext lead
  split
  · rfl
  · rfl
  · split
    · rfl
    · next fits => rw [slice_extract bytes (Nat.not_lt.mp fits)]

/-- The bytes between two places of a buffer have their first defect at an offset exactly if those
before it are UTF-8 and the reader of one scalar, bounded by the second place, is refused there. -/
theorem decodeFrom_slice_eq_error_iff {start offset : Nat} :
    (∃ reason, decodeFrom start (slice bytes start stop) = .error ⟨offset, reason⟩) ↔
      start ≤ offset ∧ offset < stop ∧ (slice bytes start offset).toByteArray.IsValidUTF8 ∧
        ∃ found, decodeScalar bytes offset stop = some (.error ⟨offset, found⟩) := by
  -- The buffer is cut at the bound, where both readers have the same bytes before them.
  have size := size_extract_zero inside
  constructor
  · rintro ⟨reason, refused⟩
    obtain ⟨text, lead, rest, scalars, sliceEq, stuck, rfl⟩ := decodeFrom_eq_error_iff.mp refused
    have ahead : (bytes.extract 0 stop).toList.drop (start + (encodeAll text).length) =
        lead :: rest := by
      rw [← List.drop_drop, drop_extract, sliceEq, List.drop_left]
    have before : start + (encodeAll text).length < stop := by
      have length := congrArg List.length ahead
      rw [List.length_drop, Array.length_toList, size, List.length_cons] at length
      omega
    have upTo : slice bytes start (start + (encodeAll text).length) = encodeAll text := by
      have cut := slice_append bytes (Nat.le_add_right start (encodeAll text).length)
        (Nat.le_of_lt before)
      rw [sliceEq] at cut
      refine (List.append_inj_left cut ?_).symm
      rw [length_slice (Nat.le_trans (Nat.le_of_lt before) inside), Nat.add_sub_cancel_left]
    refine ⟨Nat.le_add_right _ _, before, ?_, ?_⟩
    · rw [upTo]
      exact isValidUTF8_encodeAll scalars
    · obtain ⟨found, fails⟩ := decodeScalar_of_defect ahead stuck
      rw [size, decodeScalar_extract inside before] at fails
      exact ⟨found, fails⟩
  · rintro ⟨afterStart, before, valid, found, fails⟩
    obtain ⟨text, decoded⟩ := isValidUTF8_iff.mp valid
    obtain ⟨scalars, upTo⟩ := decode_eq_ok_iff.mp decoded
    rw [← decodeScalar_extract inside before] at fails
    obtain ⟨lead, rest, ahead⟩ := exists_ahead_of_decodeScalar fails
    cases strict : readScalar lead rest with
    | ok result =>
        have read := (decodeScalar_of_read ahead strict).1
        rw [size, fails] at read
        cases read
    | error reason =>
        refine ⟨reason, decodeFrom_eq_error_iff.mpr ⟨text, lead, rest, scalars, ?_, strict, ?_⟩⟩
        · rw [← upTo, ← ahead, drop_extract, ← slice_append bytes afterStart
            (Nat.le_of_lt before)]
        · show offset = start + _
          rw [← upTo, length_slice (Nat.le_trans (Nat.le_of_lt before) inside),
            Nat.add_sub_cancel' afterStart]

end Part

end RecordScan.Utf8
