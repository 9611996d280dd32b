import Mathlib.Tactic.SplitIfs
import RecordScan.Utf8.Decode
import RecordScan.Utf8.Encode

/-!
Contract: encoding and strict decoding of UTF-8 are inverse to each other.

Owns: the code points that have an encoding (`Code.IsScalar`); the shape of the
encoding of one scalar (`Sequence`), which the reader reads back and nothing else
(`encodeCode_of_readScalar`); and the law of whole byte strings
(`decodeFrom_eq_ok_iff`): a byte string has exactly the text whose encoding it is.

Does not own: offsets inside a byte string (`RecordScan.Proofs.Utf8.Boundary`).
-/

namespace RecordScan

/-- A code point that a text can hold and that has an encoding: any but the halves of
surrogate pairs. Numbers above the last code point stand for no character. -/
def Code.IsScalar (code : Code) : Prop :=
  code ≤ Code.greatest ∧ code.isSurrogate = false

instance (code : Code) : Decidable code.IsScalar := by
  unfold Code.IsScalar
  infer_instance

/-- A text in which every code point has an encoding. -/
def Text.IsScalar (text : Text) : Prop :=
  ∀ code ∈ text, code.IsScalar

@[simp] theorem Text.isScalar_nil : Text.IsScalar [] := by
  simp [Text.IsScalar]

@[simp] theorem Text.isScalar_cons (code : Code) (text : Text) :
    Text.IsScalar (code :: text) ↔ code.IsScalar ∧ text.IsScalar := by
  simp [Text.IsScalar]

@[simp] theorem Text.isScalar_append (first second : Text) :
    Text.IsScalar (first ++ second) ↔ first.IsScalar ∧ second.IsScalar := by
  simp [Text.IsScalar, or_imp, forall_and]

theorem Code.isScalar_iff (code : Nat) :
    Code.IsScalar code ↔ code ≤ 0x10FFFF ∧ ¬ (0xD800 ≤ code ∧ code ≤ 0xDFFF) := by
  unfold Code.IsScalar Code.isSurrogate Code.greatest
  rw [← Bool.not_eq_true, Bool.and_eq_true, decide_eq_true_eq, decide_eq_true_eq]

theorem Code.isScalar_of_ascii {code : Nat} (ascii : code < 0x80) : Code.IsScalar code := by
  rw [Code.isScalar_iff]
  omega

namespace Utf8

/-! ## Bytes as numbers -/

private theorem toNat_toUInt8 {number : Nat} (small : number < 0x100) :
    number.toUInt8.toNat = number := by
  simp only [Nat.toUInt8, UInt8.toNat_ofNat']
  exact Nat.mod_eq_of_lt small

private theorem eq_toUInt8 {byte : UInt8} {number : Nat} (same : byte.toNat = number) :
    byte = number.toUInt8 := by
  rw [← same]
  simp [Nat.toUInt8]

theorem toNat_tailByte (code : Nat) : (tailByte code).toNat = 0x80 + code % 0x40 :=
  toNat_toUInt8 (by omega)

theorem isContinuation_tailByte (code : Nat) : isContinuation (tailByte code).toNat = true := by
  rw [toNat_tailByte]
  simp only [isContinuation, Bool.and_eq_true, decide_eq_true_eq]
  omega

/-! ## Lead bytes -/

private theorem lead?_one {byte : Nat} (high : byte < 0x80) : lead? byte = some (byte, []) :=
  if_pos high

private theorem lead?_two {byte : Nat} (low : 0xC2 ≤ byte) (high : byte < 0xE0) :
    lead? byte = some (byte - 0xC0, [(0x80, 0xBF)]) := by
  have aboveOne : ¬ byte < 0x80 := by omega
  rw [lead?, if_neg aboveOne, if_neg (Nat.not_lt.mpr low), if_pos high]

/-- The narrower ranges of the second byte shut out overlong forms and surrogates. -/
private theorem lead?_three {byte : Nat} (low : 0xE0 ≤ byte) (high : byte < 0xF0) :
    lead? byte = some (byte - 0xE0,
      [(if byte = 0xE0 then 0xA0 else 0x80, if byte = 0xED then 0x9F else 0xBF),
        (0x80, 0xBF)]) := by
  grind [lead?]

/-- The narrower ranges of the second byte shut out overlong forms and numbers above the last
code point. -/
private theorem lead?_four {byte : Nat} (low : 0xF0 ≤ byte) (high : byte < 0xF5) :
    lead? byte = some (byte - 0xF0,
      [(if byte = 0xF0 then 0x90 else 0x80, if byte = 0xF4 then 0x8F else 0xBF),
        (0x80, 0xBF), (0x80, 0xBF)]) := by
  grind [lead?]

private theorem lead?_none {byte : Nat} (outside : 0x80 ≤ byte ∧ byte < 0xC2 ∨ 0xF5 ≤ byte) :
    lead? byte = none := by
  grind [lead?]

private theorem follow_cons {low high : Nat} {ranges : List (Nat × Nat)} {code : Nat}
    {byte : UInt8} {bytes : List UInt8} (inRange : low ≤ byte.toNat ∧ byte.toNat ≤ high) :
    follow ((low, high) :: ranges) code (byte :: bytes) =
      follow ranges (code * 0x40 + (byte.toNat - 0x80)) bytes :=
  if_pos inRange

private theorem exists_of_follow_cons {low high : Nat} {ranges : List (Nat × Nat)}
    {code : Nat} {bytes : List UInt8} {result : Code × List UInt8}
    (read : follow ((low, high) :: ranges) code bytes = .ok result) :
    ∃ byte rest, bytes = byte :: rest ∧ (low ≤ byte.toNat ∧ byte.toNat ≤ high) ∧
      follow ranges (code * 0x40 + (byte.toNat - 0x80)) rest = .ok result := by
  cases bytes with
  | nil => simp [follow] at read
  | cons byte rest =>
      by_cases inRange : low ≤ byte.toNat ∧ byte.toNat ≤ high
      · rw [follow_cons inRange] at read
        exact ⟨byte, rest, rfl, inRange, read⟩
      · rw [follow, if_neg inRange] at read
        cases read

/-! ## The encoding of one scalar -/

private theorem encodeCode_one {code : Nat} (high : code < 0x80) :
    encodeCode code = [code.toUInt8] :=
  if_pos high

private theorem encodeCode_two {code : Nat} (low : 0x80 ≤ code) (high : code < 0x800) :
    encodeCode code = [(0xC0 + code / 0x40).toUInt8, tailByte code] := by
  rw [encodeCode, if_neg (Nat.not_lt.mpr low), if_pos high]

private theorem encodeCode_three {code : Nat} (low : 0x800 ≤ code) (high : code < 0x10000) :
    encodeCode code =
      [(0xE0 + code / 0x1000).toUInt8, tailByte (code / 0x40), tailByte code] := by
  have aboveOne : ¬ code < 0x80 := by omega
  rw [encodeCode, if_neg aboveOne, if_neg (Nat.not_lt.mpr low), if_pos high]

private theorem encodeCode_four {code : Nat} (low : 0x10000 ≤ code) :
    encodeCode code =
      [(0xF0 + code / 0x40000).toUInt8, tailByte (code / 0x1000), tailByte (code / 0x40),
        tailByte code] := by
  have aboveOne : ¬ code < 0x80 := by omega
  have aboveTwo : ¬ code < 0x800 := by omega
  rw [encodeCode, if_neg aboveOne, if_neg aboveTwo, if_neg (Nat.not_lt.mpr low)]

/-- A scalar is encoded by one byte that leads and announces the width, and by bytes that
stand only inside a sequence. Whatever follows, the reader finds the scalar again. -/
structure Sequence (code : Code) (lead : UInt8) (tail : List UInt8) : Prop where
  encoded : encodeCode code = lead :: tail
  read : ∀ rest, readScalar lead (tail ++ rest) = .ok (code, rest)
  width_lead : width lead.toNat = tail.length + 1
  alone : tail = [] → lead.toNat = code
  lead_boundary : isContinuation lead.toNat = false
  tail_continuation : ∀ byte ∈ tail, isContinuation byte.toNat = true

private theorem sequence_one {code : Nat} (high : code < 0x80) :
    Sequence code code.toUInt8 [] := by
  have leadValue : code.toUInt8.toNat = code := toNat_toUInt8 (by omega)
  refine ⟨encodeCode_one high, ?_, ?_, fun _ => leadValue, ?_, by simp⟩
  · intro rest
    simp only [readScalar, leadValue, lead?_one high, List.nil_append, follow]
  · simp [width, leadValue, high]
  · grind [isContinuation]

private theorem sequence_two {code : Nat} (low : 0x80 ≤ code) (high : code < 0x800) :
    Sequence code (0xC0 + code / 0x40).toUInt8 [tailByte code] := by
  have leadValue : (0xC0 + code / 0x40).toUInt8.toNat = 0xC0 + code / 0x40 :=
    toNat_toUInt8 (by omega)
  refine ⟨encodeCode_two low high, ?_, ?_, by simp, ?_, by simp [isContinuation_tailByte]⟩
  · intro rest
    have secondValue := toNat_tailByte code
    simp only [readScalar, leadValue, List.cons_append, List.nil_append]
    rw [lead?_two (by omega) (by omega)]
    simp only
    rw [follow_cons (by omega)]
    simp only [follow, Except.ok.injEq, Prod.mk.injEq, and_true]
    show (_ : Nat) = code
    omega
  · grind [width]
  · grind [isContinuation]

private theorem sequence_three {code : Nat} (low : 0x800 ≤ code) (high : code < 0x10000)
    (paired : ¬ (0xD800 ≤ code ∧ code ≤ 0xDFFF)) :
    Sequence code (0xE0 + code / 0x1000).toUInt8
      [tailByte (code / 0x40), tailByte code] := by
  have leadValue : (0xE0 + code / 0x1000).toUInt8.toNat = 0xE0 + code / 0x1000 :=
    toNat_toUInt8 (by omega)
  refine ⟨encodeCode_three low high, ?_, ?_, by simp, ?_, by simp [isContinuation_tailByte]⟩
  · intro rest
    have secondValue := toNat_tailByte (code / 0x40)
    have thirdValue := toNat_tailByte code
    simp only [readScalar, leadValue, List.cons_append, List.nil_append]
    rw [lead?_three (by omega) (by omega)]
    simp only
    rw [follow_cons (by split_ifs <;> omega), follow_cons (by omega)]
    simp only [follow, Except.ok.injEq, Prod.mk.injEq, and_true]
    show (_ : Nat) = code
    omega
  · grind [width]
  · grind [isContinuation]

private theorem sequence_four {code : Nat} (low : 0x10000 ≤ code) (high : code ≤ 0x10FFFF) :
    Sequence code (0xF0 + code / 0x40000).toUInt8
      [tailByte (code / 0x1000), tailByte (code / 0x40), tailByte code] := by
  have leadValue : (0xF0 + code / 0x40000).toUInt8.toNat = 0xF0 + code / 0x40000 :=
    toNat_toUInt8 (by omega)
  refine ⟨encodeCode_four low, ?_, ?_, by simp, ?_, by simp [isContinuation_tailByte]⟩
  · intro rest
    have secondValue := toNat_tailByte (code / 0x1000)
    have thirdValue := toNat_tailByte (code / 0x40)
    have fourthValue := toNat_tailByte code
    simp only [readScalar, leadValue, List.cons_append, List.nil_append]
    rw [lead?_four (by omega) (by omega)]
    simp only
    rw [follow_cons (by split_ifs <;> omega), follow_cons (by omega), follow_cons (by omega)]
    simp only [follow, Except.ok.injEq, Prod.mk.injEq, and_true]
    show (_ : Nat) = code
    omega
  · grind [width]
  · grind [isContinuation]

theorem exists_sequence {code : Code} (scalar : code.IsScalar) :
    ∃ lead tail, Sequence code lead tail := by
  obtain ⟨small, paired⟩ := (Code.isScalar_iff code).mp scalar
  by_cases one : code < 0x80
  · exact ⟨_, _, sequence_one one⟩
  by_cases two : code < 0x800
  · exact ⟨_, _, sequence_two (Nat.not_lt.mp one) two⟩
  by_cases three : code < 0x10000
  · exact ⟨_, _, sequence_three (Nat.not_lt.mp two) three paired⟩
  · exact ⟨_, _, sequence_four (Nat.not_lt.mp three) small⟩

theorem encodeCode_ascii {byte : UInt8} (ascii : byte.toNat < 0x80) :
    encodeCode byte.toNat = [byte] := by
  rw [encodeCode, if_pos ascii]
  simp

theorem encodeCode_ne_nil (code : Code) : encodeCode code ≠ [] := by
  unfold encodeCode
  split_ifs <;> exact List.cons_ne_nil _ _

theorem encodeCode_length_le (code : Code) : (encodeCode code).length ≤ 4 := by
  unfold encodeCode
  split_ifs <;> simp

/-- Surrogates and numbers above the last code point have bytes too. The first of them is no
continuation byte, unless three continuation bytes follow. -/
theorem encodeCode_eq_lead_cons (code : Code) :
    ∃ lead tail, encodeCode code = lead :: tail ∧
      (isContinuation lead.toNat = false ∨
        tail.length = 3 ∧ ∀ byte ∈ tail, isContinuation byte.toNat = true) := by
  by_cases one : code < 0x80
  · have leadValue : code.toUInt8.toNat = code := toNat_toUInt8 (Nat.lt_trans one (by decide))
    exact ⟨_, _, encodeCode_one one, .inl (by grind [isContinuation])⟩
  by_cases two : code < 0x800
  · have leadValue : (0xC0 + code / 0x40).toUInt8.toNat = 0xC0 + code / 0x40 :=
      toNat_toUInt8 (by grind)
    exact ⟨_, _, encodeCode_two (Nat.not_lt.mp one) two, .inl (by grind [isContinuation])⟩
  by_cases three : code < 0x10000
  · have leadValue : (0xE0 + code / 0x1000).toUInt8.toNat = 0xE0 + code / 0x1000 :=
      toNat_toUInt8 (by grind)
    exact ⟨_, _, encodeCode_three (Nat.not_lt.mp two) three, .inl (by grind [isContinuation])⟩
  · exact ⟨_, _, encodeCode_four (Nat.not_lt.mp three),
      .inr ⟨rfl, by simp [isContinuation_tailByte]⟩⟩

/-! ## What the reader accepts -/

private theorem isScalar_of_bounds {code : Nat} (small : code ≤ 0x10FFFF)
    (paired : ¬ (0xD800 ≤ code ∧ code ≤ 0xDFFF)) : Code.IsScalar code :=
  (Code.isScalar_iff code).mpr ⟨small, paired⟩

private theorem encodeCode_of_read_two {lead second : UInt8} {code : Nat}
    (leadRange : 0xC2 ≤ lead.toNat ∧ lead.toNat < 0xE0)
    (secondRange : 0x80 ≤ second.toNat ∧ second.toNat ≤ 0xBF)
    (value : code = (lead.toNat - 0xC0) * 0x40 + (second.toNat - 0x80)) :
    Code.IsScalar code ∧ [lead, second] = encodeCode code := by
  refine ⟨isScalar_of_bounds (by omega) (by omega), ?_⟩
  have leadEq : lead = (0xC0 + code / 0x40).toUInt8 := eq_toUInt8 (by omega)
  have secondEq : second = tailByte code := eq_toUInt8 (by omega)
  rw [encodeCode_two (by omega) (by omega), ← leadEq, ← secondEq]

private theorem encodeCode_of_read_three {lead second third : UInt8} {code : Nat}
    (leadRange : 0xE0 ≤ lead.toNat ∧ lead.toNat < 0xF0)
    (secondRange : (if lead.toNat = 0xE0 then 0xA0 else 0x80) ≤ second.toNat ∧
      second.toNat ≤ if lead.toNat = 0xED then 0x9F else 0xBF)
    (thirdRange : 0x80 ≤ third.toNat ∧ third.toNat ≤ 0xBF)
    (value : code =
      ((lead.toNat - 0xE0) * 0x40 + (second.toNat - 0x80)) * 0x40 + (third.toNat - 0x80)) :
    Code.IsScalar code ∧ [lead, second, third] = encodeCode code := by
  -- The ranges of the second byte leave a code point that needs three bytes and is no surrogate.
  have bounds : 0x800 ≤ code ∧ code < 0x10000 ∧ ¬ (0xD800 ≤ code ∧ code ≤ 0xDFFF) := by
    split_ifs at secondRange <;> omega
  have secondBounds : 0x80 ≤ second.toNat ∧ second.toNat ≤ 0xBF := by
    split_ifs at secondRange <;> omega
  refine ⟨isScalar_of_bounds (by omega) bounds.2.2, ?_⟩
  have leadEq : lead = (0xE0 + code / 0x1000).toUInt8 := eq_toUInt8 (by omega)
  have secondEq : second = tailByte (code / 0x40) := eq_toUInt8 (by omega)
  have thirdEq : third = tailByte code := eq_toUInt8 (by omega)
  rw [encodeCode_three bounds.1 bounds.2.1, ← leadEq, ← secondEq, ← thirdEq]

private theorem encodeCode_of_read_four {lead second third fourth : UInt8} {code : Nat}
    (leadRange : 0xF0 ≤ lead.toNat ∧ lead.toNat < 0xF5)
    (secondRange : (if lead.toNat = 0xF0 then 0x90 else 0x80) ≤ second.toNat ∧
      second.toNat ≤ if lead.toNat = 0xF4 then 0x8F else 0xBF)
    (thirdRange : 0x80 ≤ third.toNat ∧ third.toNat ≤ 0xBF)
    (fourthRange : 0x80 ≤ fourth.toNat ∧ fourth.toNat ≤ 0xBF)
    (value : code =
      (((lead.toNat - 0xF0) * 0x40 + (second.toNat - 0x80)) * 0x40 + (third.toNat - 0x80)) *
        0x40 + (fourth.toNat - 0x80)) :
    Code.IsScalar code ∧ [lead, second, third, fourth] = encodeCode code := by
  have bounds : 0x10000 ≤ code ∧ code ≤ 0x10FFFF := by
    split_ifs at secondRange <;> omega
  have secondBounds : 0x80 ≤ second.toNat ∧ second.toNat ≤ 0xBF := by
    split_ifs at secondRange <;> omega
  refine ⟨isScalar_of_bounds bounds.2 (by omega), ?_⟩
  have leadEq : lead = (0xF0 + code / 0x40000).toUInt8 := eq_toUInt8 (by omega)
  have secondEq : second = tailByte (code / 0x1000) := eq_toUInt8 (by omega)
  have thirdEq : third = tailByte (code / 0x40) := eq_toUInt8 (by omega)
  have fourthEq : fourth = tailByte code := eq_toUInt8 (by omega)
  rw [encodeCode_four bounds.1, ← leadEq, ← secondEq, ← thirdEq, ← fourthEq]

/-- The reader accepts only what the encoder writes: the bytes it took are the encoding of the
scalar it found. -/
theorem encodeCode_of_readScalar {byte : UInt8} {bytes rest : List UInt8} {code : Code}
    (read : readScalar byte bytes = .ok (code, rest)) :
    code.IsScalar ∧ byte :: bytes = encodeCode code ++ rest := by
  unfold readScalar at read
  by_cases outside : 0x80 ≤ byte.toNat ∧ byte.toNat < 0xC2 ∨ 0xF5 ≤ byte.toNat
  · rw [lead?_none outside] at read
    cases read
  by_cases one : byte.toNat < 0x80
  · rw [lead?_one one] at read
    simp only [follow, Except.ok.injEq, Prod.mk.injEq] at read
    obtain ⟨rfl, rfl⟩ := read
    refine ⟨isScalar_of_bounds (by omega) (by omega), ?_⟩
    rw [encodeCode_one one, ← eq_toUInt8 rfl, List.singleton_append]
  by_cases two : byte.toNat < 0xE0
  · rw [lead?_two (by omega) two] at read
    obtain ⟨second, _, rfl, secondRange, last⟩ := exists_of_follow_cons read
    simp only [follow, Except.ok.injEq, Prod.mk.injEq] at last
    obtain ⟨scalar, encoded⟩ :=
      encodeCode_of_read_two ⟨by omega, two⟩ secondRange last.1.symm
    exact ⟨scalar, by rw [← encoded, ← last.2]; rfl⟩
  by_cases three : byte.toNat < 0xF0
  · rw [lead?_three (by omega) three] at read
    obtain ⟨second, _, rfl, secondRange, read⟩ := exists_of_follow_cons read
    obtain ⟨third, _, rfl, thirdRange, last⟩ := exists_of_follow_cons read
    simp only [follow, Except.ok.injEq, Prod.mk.injEq] at last
    obtain ⟨scalar, encoded⟩ :=
      encodeCode_of_read_three ⟨by omega, three⟩ secondRange thirdRange last.1.symm
    exact ⟨scalar, by rw [← encoded, ← last.2]; rfl⟩
  · rw [lead?_four (by omega) (by omega)] at read
    obtain ⟨second, _, rfl, secondRange, read⟩ := exists_of_follow_cons read
    obtain ⟨third, _, rfl, thirdRange, read⟩ := exists_of_follow_cons read
    obtain ⟨fourth, _, rfl, fourthRange, last⟩ := exists_of_follow_cons read
    simp only [follow, Except.ok.injEq, Prod.mk.injEq] at last
    obtain ⟨scalar, encoded⟩ :=
      encodeCode_of_read_four ⟨by omega, by omega⟩ secondRange thirdRange fourthRange
        last.1.symm
    exact ⟨scalar, by rw [← encoded, ← last.2]; rfl⟩

/-! ## Whole byte strings -/

@[simp] theorem encodeAll_nil : encodeAll [] = [] :=
  rfl

@[simp] theorem encodeAll_cons (code : Code) (text : Text) :
    encodeAll (code :: text) = encodeCode code ++ encodeAll text := by
  simp [encodeAll]

@[simp] theorem encodeAll_append (first second : Text) :
    encodeAll (first ++ second) = encodeAll first ++ encodeAll second := by
  simp [encodeAll]

theorem decodeFrom_encodeAll (offset : Nat) {text : Text} (scalars : text.IsScalar) :
    decodeFrom offset (encodeAll text) = .ok text := by
  induction text generalizing offset with
  | nil => simp [decodeFrom]
  | cons code text inductionHypothesis =>
      obtain ⟨scalar, textScalars⟩ := (Text.isScalar_cons code text).mp scalars
      obtain ⟨lead, tail, sequence⟩ := exists_sequence scalar
      rw [encodeAll_cons, sequence.encoded, List.cons_append, decodeFrom]
      split
      · next reason read =>
          rw [sequence.read] at read
          cases read
      · next found rest read =>
          rw [sequence.read, Except.ok.injEq, Prod.mk.injEq] at read
          rw [← read.1, ← read.2, inductionHypothesis _ textScalars]

theorem encodeAll_of_decodeFrom {offset : Nat} {bytes : List UInt8} {text : Text}
    (decoded : decodeFrom offset bytes = .ok text) :
    text.IsScalar ∧ bytes = encodeAll text := by
  fun_induction decodeFrom offset bytes generalizing text with
  | case1 offset =>
      cases decoded
      exact ⟨Text.isScalar_nil, rfl⟩
  | case2 => cases decoded
  | case3 => cases decoded
  | case4 offset byte bytes code rest read text' later inductionHypothesis =>
      cases decoded
      obtain ⟨scalar, taken⟩ := encodeCode_of_readScalar read
      obtain ⟨scalars, left⟩ := inductionHypothesis later
      exact ⟨(Text.isScalar_cons code text').mpr ⟨scalar, scalars⟩,
        by rw [taken, left, encodeAll_cons]⟩

/-- A byte string is read as a text exactly if it is the encoding of that text. -/
theorem decodeFrom_eq_ok_iff {offset : Nat} {bytes : List UInt8} {text : Text} :
    decodeFrom offset bytes = .ok text ↔ text.IsScalar ∧ bytes = encodeAll text := by
  constructor
  · exact encodeAll_of_decodeFrom
  · rintro ⟨scalars, rfl⟩
    exact decodeFrom_encodeAll offset scalars

theorem decode_eq_ok_iff {bytes : List UInt8} {text : Text} :
    decode bytes = .ok text ↔ text.IsScalar ∧ bytes = encodeAll text :=
  decodeFrom_eq_ok_iff

/-- Whether bytes are read as a text does not depend on where they stand. -/
theorem toOption_decodeFrom (offset : Nat) (bytes : List UInt8) :
    (decodeFrom offset bytes).toOption = (decode bytes).toOption := by
  cases decoded : decode bytes with
  | ok text =>
      rw [decodeFrom_eq_ok_iff.mpr (decode_eq_ok_iff.mp decoded)]
  | error defect =>
      cases again : decodeFrom offset bytes with
      | error other => rfl
      | ok text => cases decoded.symm.trans (decode_eq_ok_iff.mpr (decodeFrom_eq_ok_iff.mp again))

/-- A text of code points that is encoded has an encoding for each of them. -/
theorem eq_encodeAll_of_encode {text : Text} {bytes : List UInt8}
    (codePoints : ∀ code ∈ text, code ≤ Code.greatest) (encoded : encode text = .ok bytes) :
    text.IsScalar ∧ bytes = encodeAll text := by
  unfold encode at encoded
  by_cases surrogate : text.hasSurrogate = true
  · rw [if_pos surrogate] at encoded
    cases encoded
  · rw [if_neg surrogate] at encoded
    cases encoded
    refine ⟨fun code member => ⟨codePoints code member, ?_⟩, rfl⟩
    apply Bool.eq_false_iff.mpr
    intro isSurrogate
    exact surrogate (List.any_eq_true.mpr ⟨code, member, isSurrogate⟩)

end Utf8

end RecordScan
