import RecordScan.Proofs.Utf8.Boundary
import RecordScan.Utf8.Access

/-!
Contract: the reader of one scalar, applied again and again, is the strict reader of
whole byte strings.

Owns: walks by the reader of one scalar (`Walk`); what that reader does where a scalar
stands and where none does (`decodeScalar_of_read`, `decodeScalar_of_defect`); the law
that decoding from one end of a walk is decoding from the other (`Walk.decodeFrom_eq`);
and the tie of the encoding to that of strings (`toByteArray_encodeAll`), which is
defined elsewhere and by other means.

Does not own: boundaries in a byte string that is known to be UTF-8
(`RecordScan.Proofs.Utf8.Boundary`).

The two readers give different reasons for one defect: the reader of one scalar looks at
the announced width before it looks at the bytes. Only the offsets agree.
-/

namespace RecordScan.Utf8

/-! ## The encoding of strings -/

theorem toNat_charOfNat {code : Code} (scalar : code.IsScalar) :
    (Char.ofNat code).toNat = code := by
  have valid : Nat.isValidChar code := by
    rw [Code.isScalar_iff] at scalar
    unfold Nat.isValidChar
    omega
  unfold Char.ofNat
  rw [dif_pos valid]
  rfl

theorem isScalar_toNat (char : Char) : Code.IsScalar char.toNat := by
  rw [Code.isScalar_iff]
  have valid := char.valid
  unfold UInt32.isValidChar Nat.isValidChar at valid
  unfold Char.toNat
  omega

/-- The bytes of a character are those that a string holds for it. -/
theorem encodeCode_toNat (char : Char) : encodeCode char.toNat = String.utf8EncodeChar char := by
  have small := (Code.isScalar_iff char.toNat).mp (isScalar_toNat char)
  simp only [encodeCode, String.utf8EncodeChar, tailByte, Nat.toUInt8, Char.toNat] at small ⊢
  grind

/-- The bytes of a text are those of its string. -/
theorem toByteArray_encodeAll {text : Text} (scalars : text.IsScalar) :
    (encodeAll text).toByteArray = text.toString.toByteArray := by
  have sameBytes : text.map encodeCode =
      (text.map Char.ofNat).map String.utf8EncodeChar := by
    rw [List.map_map]
    apply List.map_congr_left
    intro code member
    rw [Function.comp_apply, ← encodeCode_toNat, toNat_charOfNat (scalars code member)]
  rw [Text.toString, String.toByteArray_ofList, List.utf8Encode, encodeAll, List.flatMap_def,
    List.flatMap_def, sameBytes]

theorem length_encodeAll {text : Text} (scalars : text.IsScalar) :
    (encodeAll text).length = text.toString.utf8ByteSize := by
  rw [String.utf8ByteSize, ← toByteArray_encodeAll scalars, List.size_toByteArray]

/-- A byte string is read exactly if some string holds these bytes. -/
theorem isValidUTF8_iff {bytes : List UInt8} :
    bytes.toByteArray.IsValidUTF8 ↔ ∃ text, decode bytes = .ok text := by
  simp only [decode_eq_ok_iff]
  constructor
  · rintro ⟨chars, held⟩
    refine ⟨chars.map Char.toNat, ?_, ?_⟩
    · intro code member
      obtain ⟨char, -, rfl⟩ := List.mem_map.mp member
      exact isScalar_toNat char
    · rw [List.utf8Encode, List.toByteArray_inj] at held
      simp only [held, encodeAll, List.flatMap_map, encodeCode_toNat]
  · rintro ⟨text, scalars, rfl⟩
    rw [toByteArray_encodeAll scalars]
    exact text.toString.isValidUTF8

theorem isValidUTF8_encodeAll {text : Text} (scalars : text.IsScalar) :
    (encodeAll text).toByteArray.IsValidUTF8 :=
  isValidUTF8_iff.mpr ⟨text, decode_eq_ok_iff.mpr ⟨scalars, rfl⟩⟩

/-! ## One scalar -/

/-- The first byte of a scalar announces the width of its encoding. -/
theorem length_of_readScalar {lead : UInt8} {bytes rest : List UInt8} {code : Code}
    (read : readScalar lead bytes = .ok (code, rest)) :
    (encodeCode code).length = width lead.toNat := by
  obtain ⟨scalar, taken⟩ := encodeCode_of_readScalar read
  obtain ⟨first, tail, sequence⟩ := exists_sequence scalar
  rw [sequence.encoded, List.cons_append, List.cons.injEq] at taken
  rw [taken.1, sequence.width_lead, sequence.encoded, List.length_cons]

/-- A scalar is read alike, whatever follows it. -/
theorem readScalar_append {lead : UInt8} {tail : List UInt8} {code : Code}
    (read : readScalar lead tail = .ok (code, [])) (rest : List UInt8) :
    readScalar lead (tail ++ rest) = .ok (code, rest) := by
  obtain ⟨scalar, taken⟩ := encodeCode_of_readScalar read
  obtain ⟨first, others, sequence⟩ := exists_sequence scalar
  rw [List.append_nil, sequence.encoded, List.cons.injEq] at taken
  rw [taken.1, taken.2]
  exact sequence.read rest

theorem decodeFrom_of_read (offset : Nat) {lead : UInt8} {bytes rest : List UInt8} {code : Code}
    (read : readScalar lead bytes = .ok (code, rest)) :
    decodeFrom offset (lead :: bytes) =
      (decodeFrom (offset + width lead.toNat) rest).map (code :: ·) := by
  rw [decodeFrom]
  split
  · next found =>
      rw [read] at found
      cases found
  · next found =>
      rw [read] at found
      cases found
      cases decodeFrom (offset + width lead.toNat) rest <;> rfl

theorem decodeFrom_of_defect (offset : Nat) {lead : UInt8} {bytes : List UInt8} {reason : Reason}
    (read : readScalar lead bytes = .error reason) :
    decodeFrom offset (lead :: bytes) = .error ⟨offset, reason⟩ := by
  rw [decodeFrom]
  split
  · next found =>
      rw [read] at found
      cases found
      rfl
  · next found =>
      rw [read] at found
      cases found

/-- As many bytes as their first one announces are one scalar, or they are refused at once. -/
theorem decode_of_announced {lead : UInt8} {tail : List UInt8}
    (announced : tail.length + 1 = width lead.toNat) :
    (∃ code, readScalar lead tail = .ok (code, []) ∧ decode (lead :: tail) = .ok [code]) ∨
      ∃ reason, decode (lead :: tail) = .error ⟨0, reason⟩ := by
  unfold decode
  cases read : readScalar lead tail with
  | error reason =>
      right
      exact ⟨reason, decodeFrom_of_defect 0 read⟩
  | ok result =>
      left
      obtain ⟨code, rest⟩ := result
      have nothingLeft : rest = [] := by
        have taken := congrArg List.length (encodeCode_of_readScalar read).2
        rw [List.length_append, length_of_readScalar read, List.length_cons] at taken
        apply List.length_eq_zero_iff.mp
        omega
      subst nothingLeft
      refine ⟨code, rfl, ?_⟩
      rw [decodeFrom_of_read 0 read, decodeFrom]
      rfl

section At

variable {bytes : Array UInt8} {position : Nat} {lead : UInt8} {rest : List UInt8}
  (ahead : bytes.toList.drop position = lead :: rest)

include ahead

private theorem lt_size_of_ahead : position < bytes.size := by
  have nonempty := congrArg List.length ahead
  rw [List.length_drop, List.length_cons, Array.length_toList] at nonempty
  omega

private theorem getElem?_of_ahead : bytes[position]? = some lead := by
  rw [← Array.getElem?_toList, ← List.head?_drop, ahead]
  rfl

/-- Where a scalar stands, the reader of one scalar finds it and its width. -/
theorem decodeScalar_of_read {code : Code} {later : List UInt8}
    (read : readScalar lead rest = .ok (code, later)) :
    decodeScalar bytes position bytes.size = some (.ok (code, width lead.toNat)) ∧
      position + width lead.toNat ≤ bytes.size ∧
      bytes.toList.drop (position + width lead.toNat) = later := by
  obtain ⟨scalar, taken⟩ := encodeCode_of_readScalar read
  have inside := lt_size_of_ahead ahead
  have before : (bytes.toList.take position).length = position := by
    rw [List.length_take, Array.length_toList]
    omega
  have split : bytes.toList = bytes.toList.take position ++ (encodeCode code ++ later) := by
    rw [← taken, ← ahead, List.take_append_drop]
  have fits : (bytes.toList.take position).length + (encodeCode code).length ≤ bytes.size := by
    have size := congrArg List.length split
    simp only [List.length_append, Array.length_toList] at size
    omega
  have found := decodeScalar_of_split scalar split fits
  rw [before, length_of_readScalar read] at found fits
  refine ⟨found, fits, ?_⟩
  rw [← List.drop_drop, ahead, taken, ← length_of_readScalar read, List.drop_left]

/-- The bytes that the announced width takes from the buffer, if there are as many. -/
private theorem slice_of_announced (fits : position + width lead.toNat ≤ bytes.size)
    (leads : 0 < width lead.toNat) :
    slice bytes position (position + width lead.toNat) =
        lead :: rest.take (width lead.toNat - 1) ∧
      (rest.take (width lead.toNat - 1)).length + 1 = width lead.toNat := by
  have size := congrArg List.length ahead
  rw [List.length_drop, List.length_cons, Array.length_toList] at size
  refine ⟨?_, ?_⟩
  · rw [slice_eq, ahead, Nat.add_sub_cancel_left]
    exact List.take_cons leads
  · rw [List.length_take]
    omega

/-- Where no scalar stands, the reader of one scalar is refused, and the defect is placed where it
was called. -/
theorem decodeScalar_of_defect {reason : Reason}
    (read : readScalar lead rest = .error reason) :
    ∃ found, decodeScalar bytes position bytes.size = some (.error ⟨position, found⟩) := by
  rw [decodeScalar, getElem?_of_ahead ahead, Option.map_some]
  split
  · exact ⟨_, rfl⟩
  · next alone =>
      have ascii : lead.toNat < 0x80 := by
        unfold width at alone
        split_ifs at alone <;> omega
      simp [readScalar, lead?, ascii, follow] at read
  · next leads alone =>
      split
      · exact ⟨_, rfl⟩
      · next fits =>
          have positive : 0 < width lead.toNat := Nat.pos_of_ne_zero leads
          obtain ⟨sliced, announced⟩ := slice_of_announced ahead (Nat.not_lt.mp fits) positive
          rw [sliced]
          rcases decode_of_announced announced with ⟨code, readSlice, -⟩ | ⟨found, refused⟩
          · -- A scalar read from the slice is read from all the bytes as well.
            have whole := readScalar_append readSlice (rest.drop (width lead.toNat - 1))
            rw [List.take_append_drop, read] at whole
            cases whole
          · rw [refused]
            exact ⟨_, rfl⟩

end At

/-- The reader of one scalar answers only where a byte stands. -/
theorem exists_ahead_of_decodeScalar {bytes : Array UInt8} {position stop : Nat}
    {result : Except Defect (Code × Nat)}
    (answered : decodeScalar bytes position stop = some result) :
    ∃ lead rest, bytes.toList.drop position = lead :: rest := by
  obtain ⟨lead, there, -⟩ := Option.map_eq_some_iff.mp answered
  rw [← Array.getElem?_toList] at there
  obtain ⟨inside, rfl⟩ := List.getElem?_eq_some_iff.mp there
  exact ⟨_, _, List.drop_eq_getElem_cons inside⟩

/-! ## Scalar after scalar -/

/-- From a position, the reader of one scalar is applied again and again, each time at the width
further on that it answered. It has answered the scalars of `text` and stands at `last`. -/
inductive Walk (bytes : Array UInt8) : (position : Nat) → (text : Text) → (last : Nat) → Prop
  | stay (position : Nat) : Walk bytes position [] position
  | step {position width last : Nat} {code : Code} {text : Text}
      (read : decodeScalar bytes position bytes.size = some (.ok (code, width)))
      (rest : Walk bytes (position + width) text last) :
      Walk bytes position (code :: text) last

/-- Decoding from the start of a walk is decoding from its end, with the scalars of the walk put
before what is found there. -/
theorem Walk.decodeFrom_eq {bytes : Array UInt8} {position last : Nat} {text : Text}
    (walk : Walk bytes position text last) :
    decodeFrom position (bytes.toList.drop position) =
      (decodeFrom last (bytes.toList.drop last)).map (text ++ ·) := by
  induction walk with
  | stay position => cases decodeFrom position (bytes.toList.drop position) <;> rfl
  | @step position announced last code text read rest inductionHypothesis =>
      obtain ⟨lead, bytesAhead, ahead⟩ := exists_ahead_of_decodeScalar read
      cases strict : readScalar lead bytesAhead with
      | error reason =>
          obtain ⟨found, refused⟩ := decodeScalar_of_defect ahead strict
          rw [read] at refused
          cases refused
      | ok result =>
          obtain ⟨found, later⟩ := result
          obtain ⟨readAgain, -, laterEq⟩ := decodeScalar_of_read ahead strict
          rw [read] at readAgain
          cases readAgain
          rw [ahead, decodeFrom_of_read position strict, ← laterEq, inductionHypothesis]
          cases decodeFrom last (bytes.toList.drop last) <;> rfl

/-- A walk goes to the end of what the strict reader accepts, and otherwise to the defect that it
names, where the reader of one scalar is refused as well. -/
theorem exists_walk {bytes : Array UInt8} {position : Nat} {list : List UInt8}
    (ahead : bytes.toList.drop position = list) (inside : position ≤ bytes.size) :
    (∃ text, decodeFrom position list = .ok text ∧ Walk bytes position text bytes.size) ∨
      ∃ text last reason found, decodeFrom position list = .error ⟨last, reason⟩ ∧
        Walk bytes position text last ∧
        decodeScalar bytes last bytes.size = some (.error ⟨last, found⟩) := by
  -- The induction is on what the strict reader has left, and keeps the position inside the bytes.
  fun_induction decodeFrom position list with
  | case1 position =>
      left
      have atEnd : position = bytes.size := by
        rw [List.drop_eq_nil_iff, Array.length_toList] at ahead
        exact Nat.le_antisymm inside ahead
      refine ⟨[], rfl, ?_⟩
      rw [atEnd]
      exact .stay bytes.size
  | case2 position lead rest reason strict =>
      right
      obtain ⟨found, refused⟩ := decodeScalar_of_defect ahead strict
      exact ⟨[], position, reason, found, rfl, .stay position, refused⟩
  | case3 position lead rest code later strict defect failed inductionHypothesis =>
      right
      obtain ⟨read, fits, laterEq⟩ := decodeScalar_of_read ahead strict
      rcases inductionHypothesis laterEq fits with
        ⟨text, decoded, -⟩ | ⟨text, last, reason, found, refused, walk, stuck⟩
      · rw [decoded] at failed
        cases failed
      · rw [refused] at failed
        cases failed
        exact ⟨code :: text, last, reason, found, rfl, .step read walk, stuck⟩
  | case4 position lead rest code later strict text accepted inductionHypothesis =>
      left
      obtain ⟨read, fits, laterEq⟩ := decodeScalar_of_read ahead strict
      rcases inductionHypothesis laterEq fits with
        ⟨again, decoded, walk⟩ | ⟨again, last, reason, found, refused, -, -⟩
      · rw [decoded] at accepted
        cases accepted
        exact ⟨code :: text, rfl, .step read walk⟩
      · rw [refused] at accepted
        cases accepted

/-! ## The entry point for all offsets -/

/-- What the reader of one scalar answers, as faults and texts. -/
def scalarAnswer : Option (Except Defect (Code × Nat)) → Except Fault (Text × Nat)
  | none => .error .indexRange
  | some (.error defect) => .error defect.fault
  | some (.ok (code, width)) => .ok ([code], width)

theorem locate_natCast {size position : Nat} (inside : position < size)
    (index : (position : Int) < indexBound) : locate size position = .ok position := by
  have positive : (0 : Int) ≤ indexBound := by decide
  have reachable : ¬ ((position : Int) < -indexBound ∨ indexBound ≤ position) := by omega
  have placed : (0 : Int) ≤ position ∧ (position : Int) < size := by omega
  simp only [locate, if_neg (Int.not_lt.mpr placed.1), if_neg reachable, if_pos placed,
    Int.toNat_natCast]

theorem clamp_natCast {size bound : Nat} (inside : bound ≤ size) :
    clamp size (bound : Int) = bound := by
  rw [clamp, if_neg (Int.not_lt.mpr (Int.natCast_nonneg bound)), Int.toNat_natCast,
    Nat.min_eq_left inside]

/-- At the offsets of a buffer and up to a bound in it, the entry point that takes any integers is
the reader of one scalar. -/
theorem scalarAt_eq_of_le {bytes : Array UInt8} {position stop : Nat}
    (inside : position < bytes.size) (bounded : stop ≤ bytes.size)
    (index : (position : Int) < indexBound) :
    scalarAt bytes position stop = scalarAnswer (decodeScalar bytes position stop) := by
  have ahead : bytes.toList.drop position =
      bytes[position] :: bytes.toList.drop (position + 1) := by
    rw [List.drop_eq_getElem_cons (by simpa using inside), Array.getElem_toList]
  have leadAt : bytes[position]? = some bytes[position] := getElem?_of_ahead ahead
  simp only [scalarAt, decodeScalar, locate_natCast inside index, Except.map, leadAt,
    Option.map_some]
  -- The announced width decides, as it does in both readers.
  rcases announced : width bytes[position].toNat with _ | _ | more
  · rfl
  · rfl
  · change (if _ then _ else _) = scalarAnswer (some (if _ then _ else _))
    by_cases fits : position + (more + 2) ≤ stop
    · have within : ¬ (stop : Int) < (position : Int) + (more + 2 : Nat) := by omega
      have held : position + (more + 2) ≤ bytes.size := Nat.le_trans fits bounded
      obtain ⟨sliced, length⟩ := slice_of_announced ahead (announced ▸ held) (by omega)
      rw [announced] at sliced
      rw [if_neg within, if_neg (Nat.not_lt.mpr fits), clamp_natCast (Nat.le_of_lt inside),
        ← Int.natCast_add, clamp_natCast held, sliced]
      rcases decode_of_announced length with ⟨code, -, decoded⟩ | ⟨reason, refused⟩
      · rw [announced] at decoded
        simp only [decoded, scalarAnswer]
      · rw [announced] at refused
        simp only [refused, scalarAnswer, Defect.fault]
        rfl
    · have beyond : (stop : Int) < (position : Int) + (more + 2 : Nat) := by omega
      rw [if_pos beyond, if_pos (Nat.not_le.mp fits)]
      rfl

theorem scalarAt_eq {bytes : Array UInt8} {position : Nat} (inside : position < bytes.size)
    (index : (position : Int) < indexBound) :
    scalarAt bytes position bytes.size =
      scalarAnswer (decodeScalar bytes position bytes.size) :=
  scalarAt_eq_of_le inside (Nat.le_refl bytes.size) index

/-! ## The two readers -/

theorem validate_eq_ok_iff {bytes : List UInt8} :
    validate bytes = .ok () ↔ ∃ text, decode bytes = .ok text := by
  unfold validate
  cases decode bytes <;> simp

theorem validate_eq_error_iff {bytes : List UInt8} {fault : Fault} :
    validate bytes = .error fault ↔
      ∃ defect, decode bytes = .error defect ∧ defect.fault = fault := by
  unfold validate
  cases decode bytes <;> simp

/-- **The reader of one scalar and the strict reader agree.** A byte string is accepted exactly if
scalar after scalar is read up to its end, and exactly if some string holds these bytes; the scalars
are then the decoded text, which is that string. It is refused exactly if the reader of one scalar
gets stuck, and both place the defect where that reader was called last. The entry point that takes
any integers answers at every offset what the reader of one scalar does. -/
theorem scalar_reader_agrees (bytes : List UInt8) :
    (validate bytes = .ok () ↔ ∃ text, Walk bytes.toArray 0 text bytes.length) ∧
    (validate bytes = .ok () ↔ bytes.toByteArray.IsValidUTF8) ∧
    (∀ text, Walk bytes.toArray 0 text bytes.length ↔ decode bytes = .ok text) ∧
    (∀ text, decode bytes = .ok text → text.toString.toByteArray = bytes.toByteArray) ∧
    (∀ fault, validate bytes = .error fault →
      ∃ text position defect reason, Walk bytes.toArray 0 text position ∧
        decodeScalar bytes.toArray position bytes.length = some (.error defect) ∧
        defect.offset = position ∧ fault = .utf8 position reason) ∧
    (∀ text position defect, Walk bytes.toArray 0 text position →
      decodeScalar bytes.toArray position bytes.length = some (.error defect) →
      defect.offset = position ∧ ∃ reason, validate bytes = .error (.utf8 position reason)) ∧
    ∀ position : Nat, position < bytes.length → (position : Int) < indexBound →
      scalarAt bytes.toArray position bytes.length =
        scalarAnswer (decodeScalar bytes.toArray position bytes.length) := by
  have whole : bytes.toArray.toList.drop 0 = bytes := rfl
  have reached {text : Text} (walk : Walk bytes.toArray 0 text bytes.length) :
      decode bytes = .ok text := by
    have along := walk.decodeFrom_eq
    rw [List.drop_eq_nil_of_le (Nat.le_refl _), whole, decodeFrom] at along
    simpa [decode, Except.map] using along
  have passed {text : Text} (decoded : decode bytes = .ok text) :
      Walk bytes.toArray 0 text bytes.length := by
    rcases exists_walk whole (Nat.zero_le _) with ⟨found, again, walk⟩ | ⟨_, _, _, _, refused, -⟩
    · rw [decode, again] at decoded
      cases decoded
      exact walk
    · rw [decode, refused] at decoded
      cases decoded
  refine ⟨?_, ?_, fun text => ⟨reached, passed⟩, ?_, ?_, ?_, ?_⟩
  · rw [validate_eq_ok_iff]
    exact exists_congr fun text => ⟨passed, reached⟩
  · rw [validate_eq_ok_iff, isValidUTF8_iff]
  · intro text decoded
    obtain ⟨scalars, encoded⟩ := decode_eq_ok_iff.mp decoded
    rw [encoded, toByteArray_encodeAll scalars]
  · intro fault invalid
    obtain ⟨defect, undecoded, rfl⟩ := validate_eq_error_iff.mp invalid
    rcases exists_walk whole (Nat.zero_le _) with
      ⟨found, decoded, -⟩ | ⟨text, last, reason, found, refused, walk, stuck⟩
    · rw [decode, decoded] at undecoded
      cases undecoded
    · rw [decode, refused] at undecoded
      cases undecoded
      exact ⟨text, last, ⟨last, found⟩, reason, walk, stuck, rfl, rfl⟩
  · intro text position defect walk stuck
    obtain ⟨lead, rest, ahead⟩ := exists_ahead_of_decodeScalar stuck
    cases strict : readScalar lead rest with
    | ok result =>
        have read := (decodeScalar_of_read ahead strict).1
        rw [List.size_toArray, stuck] at read
        cases read
    | error reason =>
        obtain ⟨found, refused⟩ := decodeScalar_of_defect ahead strict
        rw [List.size_toArray, stuck] at refused
        cases refused
        refine ⟨rfl, reason, ?_⟩
        have along := walk.decodeFrom_eq
        rw [ahead, decodeFrom_of_defect position strict, whole] at along
        exact validate_eq_error_iff.mpr ⟨_, along, rfl⟩
  · intro position inside index
    have answer := @scalarAt_eq bytes.toArray position inside index
    simpa using answer

/-- After one scalar stands half a surrogate pair in three bytes, as many as its first byte
announces: both readers refuse it at the first of them. -/
theorem scalar_reader_agrees_surrogate :
    let bytes : List UInt8 := [0x61, 0xED, 0xA0, 0x80]
    Walk bytes.toArray 0 [0x61] 1 ∧
      decodeScalar bytes.toArray 1 4 = some (.error ⟨1, .malformed⟩) ∧
      (∃ reason, validate bytes = .error (.utf8 1 reason)) ∧
      ¬ bytes.toByteArray.IsValidUTF8 := by
  intro bytes
  have walk : Walk bytes.toArray 0 [0x61] 1 := .step rfl (.stay 1)
  have stuck : decodeScalar bytes.toArray 1 4 = some (.error ⟨1, .malformed⟩) := by
    cbv
  obtain ⟨-, valid, -, -, -, refusal, -⟩ := scalar_reader_agrees bytes
  obtain ⟨-, reason, invalid⟩ := refusal [0x61] 1 _ walk stuck
  refine ⟨walk, stuck, ⟨reason, invalid⟩, fun isValid => ?_⟩
  rw [valid.mpr isValid] at invalid
  cases invalid

end RecordScan.Utf8
