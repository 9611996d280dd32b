import RecordScan.Proofs.Grammar.KeyValue
import RecordScan.Proofs.Grammar.Spelling

/-!
Contract: reading a number is finding its longest spelling.

Owns: the scan for a number over the visible units of any view
(`View.number_cases`), which ends behind the longest spelling there or finds none and
returns; what is recorded meanwhile over a bare source, in both modes; and the number
that must fill a source (`View.wholeNumber_reads`).

The value is read from what was recorded, not from the units that were seen. Over a bare
source the two are the same, since every character of a spelling is one byte.
-/

namespace RecordScan

open Number (Spelling)

/-- ASCII characters stand for themselves as bytes. -/
theorem Utf8.encodeAll_map_toNat {bytes : List UInt8}
    (ascii : ∀ byte ∈ bytes, byte.toNat < 0x80) :
    encodeAll (bytes.map UInt8.toNat) = bytes := by
  induction bytes with
  | nil => rfl
  | cons byte bytes inductionHypothesis =>
      have later := inductionHypothesis
        fun other member => ascii other (List.mem_cons_of_mem _ member)
      have first := encodeCode_ascii (ascii byte (List.mem_cons_self ..))
      rw [List.map_cons, encodeAll_cons, first, later]
      rfl

/-- ASCII bytes are decoded as they are. -/
theorem Utf8.decodeFrom_of_ascii (offset : Nat) {bytes : List UInt8}
    (ascii : ∀ byte ∈ bytes, byte.toNat < 0x80) :
    decodeFrom offset bytes = .ok (bytes.map UInt8.toNat) := by
  have scalars : Text.IsScalar (bytes.map UInt8.toNat) := by
    intro code member
    obtain ⟨byte, isByte, rfl⟩ := List.mem_map.mp member
    exact Code.isScalar_of_ascii (ascii byte isByte)
  have decoded := decodeFrom_encodeAll offset scalars
  rwa [encodeAll_map_toNat ascii] at decoded

/-- The bytes of a spelling are decoded as that spelling. -/
theorem Number.Spelling.decodeFrom_eq {spelling : Spelling} {bytes : List UInt8} (offset : Nat)
    (isText : bytes.map UInt8.toNat = spelling.text) :
    Utf8.decodeFrom offset bytes = .ok spelling.text := by
  rw [← isText]
  apply Utf8.decodeFrom_of_ascii
  intro byte member
  have bounds := bounds_of_mem (isText ▸ List.mem_map_of_mem member)
  omega

namespace View

variable {view : View} {source : Source} {mark position : Nat}

/-! ## Stages of the scan -/

theorem Placed.recordFrom (placed : view.Placed position) (started : mark ≤ position) :
    (view.recordFrom mark).Placed position :=
  PlacedThrough.of_inner placed (by rintro start ⟨rfl⟩; exact started)

/-- A character is taken if it is next, and nothing happens otherwise. -/
theorem nextIf_character (char : Char) (ascii : char.toNat < 0x80) (placed : view.Placed position) :
    (∃ rest, view.visible position = char.toNat :: rest ∧
      view.Leaves (view.nextIf (character char)) position (some char.toNat) rest) ∨
    (view.visible position).head? ≠ some char.toNat ∧
      view.Leaves (view.nextIf (character char)) position none (view.visible position) := by
  have begins {value : Option Code} {rest : List Code}
      (leaves : view.Leaves (view.nextWith (· == char.toNat)) position value rest) :
      view.Leaves (view.nextIf (character char)) position value rest := by
    obtain ⟨moved, answer, left⟩ := leaves
    exact ⟨moved, (test_bind (character_test? char view.mode ascii) _ position).trans answer, left⟩
  by_cases isNext : (view.visible position).head? = some char.toNat
  · left
    obtain ⟨rest, isVisible⟩ := List.head?_eq_some_iff.mp isNext
    exact ⟨rest, isVisible, begins
      (view.reads.nextIf_of_match (· == char.toNat) placed isVisible (beq_self_eq_true _))⟩
  · right
    refine ⟨isNext, begins ⟨position, ?_, placed, Nat.le_refl position, rfl⟩⟩
    apply view.reads.nextIf_of_no_match (· == char.toNat) placed
    intro unit rest isVisible
    rw [isVisible, List.head?_cons, Option.some.injEq] at isNext
    exact beq_eq_false_iff_ne.mpr isNext

/-- A run of digits is taken up to something else. -/
theorem countRun_digits (placed : view.Placed position) :
    ∃ values rest, view.visible position = Spelling.digits values ++ rest ∧
      Spelling.EndsDigits rest ∧
      view.Leaves (view.countRun digits) position values.length rest := by
  have counted := @countRun_leaves position view digits Code.isAsciiDigit rfl placed
  have areDigits (code : Code)
      (member : code ∈ (view.visible position).takeWhile Code.isAsciiDigit) :
      code.isAsciiDigit = true := List.mem_takeWhile_imp member
  obtain ⟨values, isDigits⟩ := Spelling.exists_digits areDigits
  rw [isDigits, Spelling.length_digits] at counted
  refine ⟨values, _, ?_, ?_, counted⟩
  · rw [← isDigits]
    exact List.takeWhile_append_dropWhile.symm
  · intro code isHead
    have stopped := List.head?_dropWhile_not Code.isAsciiDigit (view.visible position)
    rw [Option.mem_def.mp isHead] at stopped
    simpa using stopped

/-- The sign is taken if there is one. -/
theorem nextIf_sign (placed : view.Placed position) :
    ∃ negative body found, view.visible position = Spelling.sign negative ++ body ∧
      (negative = false → body.head? ≠ some 0x2D) ∧ found.isSome = negative ∧
      view.Leaves (view.nextIf (character '-')) position found body := by
  rcases nextIf_character '-' (by decide) placed with ⟨rest, isVisible, taken⟩ | ⟨other, left⟩
  · exact ⟨true, rest, _, isVisible, nofun, rfl, taken⟩
  · exact ⟨false, _, _, rfl, fun _ => other, rfl, left⟩

/-- What is made of a number that was seen: its value is that of the recorded text. -/
def convert (recording : View) (spelling : Spelling) : Scan (Option Number) := do
  match spelling.fraction with
  | none =>
      let kind := if spelling.negative then NumberKind.integer else .uint
      let value ← recording.recordedInteger
      return some (← Scan.ofExcept (Number.checked kind (.whole value)))
  | some _ =>
      let value ← recording.recordedReal
      return some (← Scan.ofExcept (Number.checked .float (.real value)))

/-- **The scan for a number finds the longest spelling.** It ends behind it and converts what was
recorded; where no number is spelled it returns. -/
theorem number_cases (placed : view.Placed mark) :
    (∃ spelling rest last, view.visible mark = Spelling.text spelling ++ rest ∧
      spelling.Ends rest ∧ (view.recordFrom mark).Placed last ∧ mark ≤ last ∧
      view.visible last = rest ∧
      view.number mark = (view.recordFrom mark).convert spelling last) ∨
    (∀ spelling : Spelling, ¬ spelling.text <+: view.visible mark) ∧
      view.number mark = (.ok none, mark) := by
  let recording := view.recordFrom mark
  have started : recording.Placed mark := placed.recordFrom (Nat.le_refl mark)
  obtain ⟨negative, body, found, isVisible, unsigned, isNegative, afterSign, signed, signPlaced,
    signForward, isBody⟩ := nextIf_sign started
  obtain ⟨values, rest, isDigits, endsDigits, afterDigits, counted, digitsPlaced, digitsForward,
    isRest⟩ := countRun_digits signPlaced
  rw [isBody] at isDigits
  -- A recorder hides nothing: what it sees ahead is what the view beneath it sees.
  replace isVisible : view.visible mark = Spelling.sign negative ++ body := isVisible
  rw [isVisible]
  by_cases isEmpty : values = []
  · right
    subst isEmpty
    rw [isDigits] at unsigned ⊢
    refine ⟨Spelling.not_isPrefix endsDigits unsigned, ?_⟩
    rw [number, Scan.position_bind, Scan.bind_of_ok signed, Scan.bind_of_ok counted,
      if_pos List.length_nil]
    exact Scan.bind_of_ok (restoreThrough_eq placed afterDigits)
  · left
    have isSome : values.length ≠ 0 := fun isZero => isEmpty (List.eq_nil_of_length_eq_zero isZero)
    rcases nextIf_character '.' (by decide) digitsPlaced with
      ⟨more, isPoint, afterPoint, pointed, pointPlaced, pointForward, isMore⟩ |
      ⟨noPoint, last, stayed, lastPlaced, lastForward, isLast⟩
    · obtain ⟨fraction, rest, isFraction, endsFraction, last, fractionCounted, lastPlaced,
        lastForward, isLast⟩ := countRun_digits pointPlaced
      refine ⟨⟨negative, values, some fraction, isEmpty⟩, rest, last, ?_, ⟨endsFraction, nofun⟩,
        lastPlaced, by omega, isLast, ?_⟩
      · rw [isRest] at isPoint
        rw [isMore] at isFraction
        rw [isDigits, isPoint, isFraction]
        simp [Spelling.text, Spelling.point]
      · have consumed : recording.consumeWhile digits afterPoint = (.ok (), last) :=
          Scan.bind_of_ok fractionCounted
        rw [number, Scan.position_bind, Scan.bind_of_ok signed, Scan.bind_of_ok counted,
          if_neg isSome, Scan.bind_of_ok pointed]
        exact Scan.bind_of_ok consumed
    · refine ⟨⟨negative, values, none, isEmpty⟩, rest, last, ?_, ⟨endsDigits, ?_⟩, lastPlaced,
        by omega, ?_, ?_⟩
      · rw [isDigits]
        simp [Spelling.text, Spelling.point]
      · rw [isRest] at noPoint
        exact fun _ => noPoint
      · exact isLast.trans isRest
      · rw [number, Scan.position_bind, Scan.bind_of_ok signed, Scan.bind_of_ok counted,
          if_neg isSome, Scan.bind_of_ok stayed, isNegative]
        rfl

/-! ## What is recorded -/

/-- Over a bare source a spelling is recorded as it was seen, in both modes. -/
theorem recordedText_spelling {spelling : Spelling} {last : Nat} (admits : source.Admits mark)
    (lastAdmits : source.Admits last) (forward : mark ≤ last)
    (isAhead : source.unitsFrom mark = spelling.text ++ source.unitsFrom last) :
    recordedText (recordFrom ⟨source, []⟩ mark) last = (.ok spelling.text, last) := by
  let recording := recordFrom ⟨source, []⟩ mark
  have isPart : (source.narrowed mark last).unitsFrom mark = spelling.text :=
    List.append_cancel_right ((admits.unitsFrom_narrowed lastAdmits forward).symm.trans isAhead)
  cases isMode : source.mode with
  | text =>
      rw [← isPart]
      exact @recordedText_of_le recording mark last isMode admits lastAdmits rfl forward
  | bytes =>
      -- Bytes are recorded as they are and decoded as text, which for ASCII gives them back.
      have isSlice : (Utf8.slice source.bytes mark last).map UInt8.toNat = spelling.text := by
        rw [← isPart]
        simp [Source.unitsFrom, Source.narrowed, isMode]
      have decoded := Spelling.decodeFrom_eq mark isSlice
      rw [recordedText, Scan.bind_of_ok (@recordedRange_of_le recording mark last rfl forward)]
      simp only [recordFrom, decoded]
      rfl

section Converting

variable {spelling : Spelling}
  (recorded : view.recordedText position = (.ok spelling.text, position))

include recorded

theorem convert_of_tooLong (tooLong : spelling.TooLong) :
    view.convert spelling position = (.error (.integerDigits spelling.whole.length), position) := by
  obtain ⟨noFraction, isLong⟩ := tooLong
  have read := Spelling.readInteger_text noFraction
  rw [if_pos isLong] at read
  have refused : view.recordedInteger position =
      (.error (.integerDigits spelling.whole.length), position) := by
    rw [recordedInteger, Scan.bind_of_ok recorded, read]
    rfl
  simp only [convert, noFraction]
  exact Scan.bind_of_error refused

theorem convert_of_short (short : ¬ spelling.TooLong) :
    view.convert spelling position = (.ok (some spelling.number), position) := by
  cases isFraction : spelling.fraction with
  | none =>
      have read := Spelling.readInteger_text isFraction
      rw [if_neg fun isLong => short ⟨isFraction, isLong⟩] at read
      have answered : view.recordedInteger position = (.ok spelling.integer, position) := by
        rw [recordedInteger, Scan.bind_of_ok recorded, read]
        rfl
      simp only [convert, isFraction, Spelling.number]
      rw [Scan.bind_of_ok answered]
      exact Scan.ofExcept_bind_of_ok spelling.checked_integer _ _
  | some fraction =>
      have answered : view.recordedReal position = (.ok (spelling.real fraction), position) := by
        rw [recordedReal, Scan.bind_of_ok recorded, Spelling.readReal_text isFraction]
        rfl
      simp only [convert, isFraction, Spelling.number]
      rw [Scan.bind_of_ok answered]
      rfl

end Converting

/-! ## Numbers over a bare source -/

/-- Over a bare source the longest spelling is read as its number, unless it is too long. -/
theorem number_bare_cases (admits : source.Admits mark) :
    (∃ spelling rest last, source.unitsFrom mark = Spelling.text spelling ++ rest ∧
      spelling.Ends rest ∧ source.Admits last ∧ source.unitsFrom last = rest ∧
      (spelling.TooLong → number ⟨source, []⟩ mark =
        (.error (.integerDigits spelling.whole.length), last)) ∧
      (¬ spelling.TooLong → number ⟨source, []⟩ mark = (.ok (some spelling.number), last))) ∨
    (∀ spelling : Spelling, ¬ spelling.text <+: source.unitsFrom mark) ∧
      number ⟨source, []⟩ mark = (.ok none, mark) := by
  have placed : Placed ⟨source, []⟩ mark := ⟨admits, nofun⟩
  rcases number_cases placed with
    ⟨spelling, rest, last, isVisible, ends, lastPlaced, forward, isRest, converted⟩ | none
  · left
    replace isVisible : source.unitsFrom mark = spelling.text ++ rest := isVisible
    replace isRest : source.unitsFrom last = rest := isRest
    have recorded := recordedText_spelling admits lastPlaced.1 forward (isRest ▸ isVisible)
    refine ⟨spelling, rest, last, isVisible, ends, lastPlaced.1, isRest, ?_, ?_⟩
    · intro tooLong
      rw [converted, convert_of_tooLong recorded tooLong]
    · intro short
      rw [converted, convert_of_short recorded short]
  · exact .inr none

theorem expectEnd_eq (admits : source.Admits position) :
    expectEnd ⟨source, []⟩ position =
      match source.unitsFrom position with
      | [] => (.ok (), position)
      | unit :: _ => (.error (.unexpected source.mode (some unit) position), position) := by
  have peeked : peek ⟨source, []⟩ position = _ := admits.peek_eq
  rw [expectEnd, Scan.bind_of_ok peeked]
  cases source.unitsFrom position with
  | nil => rfl
  | cons unit rest => rfl

/-- **A number that fills its source is read, and everything else is a failed parse**, as long as
the longest spelling is not too long. -/
theorem wholeNumber_reads (admits : source.Admits mark)
    (short : ∀ spelling : Spelling, spelling.Longest (source.unitsFrom mark) →
      ¬ spelling.TooLong) :
    (∃ spelling : Spelling, spelling.text = source.unitsFrom mark ∧
      (wholeNumber ⟨source, []⟩ mark).1 = .ok spelling.number) ∨
    (∀ spelling : Spelling, spelling.text ≠ source.unitsFrom mark) ∧
      ∃ fault, fault.isParseFailure = true ∧ (wholeNumber ⟨source, []⟩ mark).1 = .error fault := by
  rw [wholeNumber, Scan.position_bind]
  rcases number_bare_cases admits with
    ⟨spelling, rest, last, isAhead, ends, lastAdmits, isRest, -, answered⟩ | ⟨unspelled, answered⟩
  · rw [isAhead] at short ⊢
    rw [Scan.bind_of_ok (answered (short spelling ends.longest))]
    have ended := expectEnd_eq lastAdmits
    rw [isRest] at ended
    cases rest with
    | nil =>
        left
        refine ⟨spelling, (List.append_nil _).symm, ?_⟩
        dsimp only at ended ⊢
        rw [Scan.bind_of_ok ended]
        rfl
    | cons unit rest =>
        right
        refine ⟨fun other same => ?_, .unexpected source.mode (some unit) last, rfl, ?_⟩
        · cases (ends.eq_of_text same).1
        · dsimp only at ended ⊢
          rw [Scan.bind_of_error ended]
  · right
    rw [Scan.bind_of_ok answered]
    exact ⟨fun spelling same => unspelled spelling (same ▸ List.prefix_refl _),
      .noNumber mark, rfl, rfl⟩

/-- An integer of too many digits is refused, whatever follows it. -/
theorem wholeNumber_tooLong {spelling : Spelling} (admits : source.Admits mark)
    (longest : spelling.Longest (source.unitsFrom mark)) (tooLong : spelling.TooLong) :
    (wholeNumber ⟨source, []⟩ mark).1 = .error (.integerDigits spelling.whole.length) := by
  rw [wholeNumber, Scan.position_bind]
  rcases number_bare_cases admits with
    ⟨other, rest, last, isAhead, ends, -, -, refused, -⟩ | ⟨unspelled, -⟩
  · rw [isAhead] at longest
    obtain rfl := ends.eq_of_longest longest
    rw [Scan.bind_of_error (refused tooLong)]
  · exact absurd longest.1 (unspelled spelling)

end View

end RecordScan
