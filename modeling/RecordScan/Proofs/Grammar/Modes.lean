import RecordScan.Proofs.Grammar.KeyValue

/-!
Contract: a text read by bytes and read by scalars.

Owns: scans that agree from some positions on (`Scan.Agree`), with a rule for each way of
sequencing; what stands at a position of a text when it is read by bytes
(`Source.UnitAt.exists_byteAt`); the moves that agree in both modes, which are conditional
steps over ASCII classes and searches for ASCII units; and, from these, the agreement of
splitting, of key/value lines and of numbers.

Does not own: bytes that are no UTF-8, or ASCII units that are looked for through ignoring
layers. A plain step agrees only before an ASCII unit (`Source.AsciiAhead`): elsewhere it
takes one byte in one mode and a whole scalar in the other.
-/

namespace RecordScan

/-! ## Agreement of scans -/

namespace Scan

/-- From every place of the first kind the scans do the same, and an answer leaves them at a place
of the second kind. -/
def Agree {α : Type} (before after : Nat → Prop) (first second : Scan α) : Prop :=
  ∀ position, before position → second position = first position ∧
    ∀ value moved, first position = (.ok value, moved) → after moved

namespace Agree

variable {α β : Type} {before middle after : Nat → Prop}

theorem pure (value : α) : Agree before before (Pure.pure value) (Pure.pure value) := by
  intro position placed
  refine ⟨rfl, ?_⟩
  rintro _ _ ⟨rfl, rfl⟩
  exact placed

theorem refuse (fault : Fault) :
    Agree before after (Scan.refuse fault : Scan α) (Scan.refuse fault) :=
  fun _ _ => ⟨rfl, nofun⟩

theorem ofExcept (result : Except Fault α) :
    Agree before before (Scan.ofExcept result) (Scan.ofExcept result) := by
  intro position placed
  refine ⟨rfl, ?_⟩
  rintro _ _ ⟨rfl, rfl⟩
  exact placed

theorem bind {first second : Scan α} {next nextSecond : α → Scan β}
    (leading : Agree before middle first second)
    (following : ∀ value, Agree middle after (next value) (nextSecond value)) :
    Agree before after (first >>= next) (second >>= nextSecond) := by
  intro position placed
  obtain ⟨same, lands⟩ := leading position placed
  cases answer : first position with
  | mk result moved =>
      rw [answer] at same
      cases result with
      | error fault =>
          rw [bind_of_error answer, bind_of_error same]
          exact ⟨rfl, nofun⟩
      | ok value =>
          rw [bind_of_ok answer, bind_of_ok same]
          exact following value moved (lands value moved answer)

theorem ofExcept_bind {first second : Except Fault α} {value : α} {next nextSecond : α → Scan β}
    (answer : first = .ok value) (sameAnswer : second = .ok value)
    (following : Agree before after (next value) (nextSecond value)) :
    Agree before after (Scan.ofExcept first >>= next) (Scan.ofExcept second >>= nextSecond) := by
  rw [answer, sameAnswer]
  exact following

/-- What follows may count on the place that is asked for. -/
theorem position_bind {next nextSecond : Nat → Scan β}
    (following : ∀ mark, before mark → Agree before after (next mark) (nextSecond mark)) :
    Agree before after (Scan.position >>= next) (Scan.position >>= nextSecond) :=
  fun position placed => following position placed position placed

theorem countLoop {first second : Scan (Option Code)} (step : Agree before before first second)
    (rounds count : Nat) :
    Agree before before (Scan.countLoop first rounds count)
      (Scan.countLoop second rounds count) := by
  induction rounds generalizing count with
  | zero => exact pure count
  | succ rounds inductionHypothesis =>
      refine bind step fun found => ?_
      cases found with
      | none => exact pure count
      | some unit => exact inductionHypothesis (count + 1)

end Agree

end Scan

/-! ## A text by its bytes -/

namespace Source

/-- The same buffer read in another mode. -/
def readAs (source : Source) (mode : Mode) : Source :=
  { source with mode := mode }

theorem readAs_self {source : Source} {mode : Mode} (isMode : source.mode = mode) :
    source.readAs mode = source := by
  rw [readAs, ← isMode]

variable {source : Source} {position : Nat}

theorem Admits.byBytes (admits : source.Admits position) :
    (source.readAs .bytes).Admits position :=
  ⟨⟨admits.start_le_stop, admits.stop_le_size, nofun, nofun⟩, admits.start_le, admits.le_stop,
    nofun⟩

/-- Where a scalar of a text stands, the byte there is below 0x80 exactly if the scalar is, and is
then the whole of it. -/
theorem UnitAt.exists_byteAt {unit : Code} (found : source.UnitAt position unit)
    (isText : source.mode = .text) (admits : source.Admits position) :
    ∃ byte, (source.readAs .bytes).UnitAt position byte ∧
      (unit < 0x80 ∨ byte < 0x80 → byte = unit ∧ source.mode.unitWidth unit = 1) := by
  obtain ⟨byte, byteFound⟩ := admits.byBytes.exists_unitAt found.lt_stop
  refine ⟨byte, byteFound, fun isAscii => ?_⟩
  have scalar := found.holds
  obtain ⟨after, unitStands⟩ := found.stands
  obtain ⟨rest, byteStands⟩ := byteFound.stands
  rw [isText] at scalar unitStands ⊢
  obtain ⟨lead, tail, sequence⟩ := Utf8.exists_sequence scalar
  have leadIs : lead.toNat = byte := by
    have small : byte < 0x100 := byteFound.holds
    have same : lead :: (tail ++ after) = byte.toUInt8 :: rest := by
      rw [← List.cons_append, ← sequence.encoded]
      exact unitStands.trans byteStands.symm
    rw [(List.cons.inj same).1]
    exact Nat.mod_eq_of_lt small
  have noTail : tail = [] := by
    have width := sequence.width_lead
    rcases isAscii with unitSmall | byteSmall
    · have encoded := sequence.encoded
      rw [Utf8.encodeCode, if_pos unitSmall, List.cons.injEq] at encoded
      exact encoded.2.symm
    · rw [leadIs, Utf8.width, if_pos byteSmall] at width
      exact List.length_eq_zero_iff.mp (Nat.succ.inj width).symm
  refine ⟨leadIs.symm.trans (sequence.alone noTail), ?_⟩
  show (Utf8.encodeCode unit).length = 1
  rw [sequence.encoded, noTail]
  rfl

/-- A place of a text with nothing ahead, or with a unit that stands alone in both modes. -/
def AsciiAhead (source : Source) (position : Nat) : Prop :=
  source.Admits position ∧ ∀ unit ∈ (source.unitsFrom position).head?, unit < 0x80

/-- Units that are the same in both modes. -/
def AsciiOnly (test : Code → Bool) : Prop :=
  ∀ unit, test unit = true → unit < 0x80

theorem UnitAt.nextIf_eq {unit : Code} (found : source.UnitAt position unit)
    (test : Code → Bool) :
    Scan.nextIf source.peek source.advance test position =
      if test unit then (.ok (some unit), position + source.mode.unitWidth unit)
      else (.ok none, position) := by
  unfold Scan.nextIf
  rw [Scan.bind_of_ok found.peek_eq]
  cases passes : test unit with
  | true => simp [passes, found.advance_eq]
  | false => simp [passes]

theorem nextIf_stop (source : Source) (test : Code → Bool) :
    Scan.nextIf source.peek source.advance test source.stop = (.ok none, source.stop) := by
  unfold Scan.nextIf
  rw [Scan.bind_of_ok source.peek_stop]
  rfl

section Agreement

variable (isText : source.mode = .text)

include isText

/-- A plain step before an ASCII unit takes one byte in both modes. -/
theorem advance_agree :
    Scan.Agree source.AsciiAhead source.Admits source.advance (source.readAs .bytes).advance := by
  rintro position ⟨admits, ascii⟩
  rcases Nat.lt_or_eq_of_le admits.le_stop with before | atEnd
  · obtain ⟨unit, found⟩ := admits.exists_unitAt before
    obtain ⟨byte, byteFound, whole⟩ := found.exists_byteAt isText admits
    rw [found.unitsFrom_eq] at ascii
    obtain ⟨rfl, width⟩ := whole (.inl (ascii unit rfl))
    rw [found.advance_eq, byteFound.advance_eq, width]
    refine ⟨rfl, ?_⟩
    rintro _ _ ⟨rfl, rfl⟩
    exact width ▸ found.admits_next
  · subst atEnd
    rw [source.advance_stop]
    refine ⟨(source.readAs .bytes).advance_stop, ?_⟩
    rintro _ _ ⟨rfl, rfl⟩
    exact admits

/-- A conditional step over ASCII units takes the same unit in both modes, or none in both. -/
theorem nextIf_agree {test : Code → Bool} (asciiOnly : AsciiOnly test) :
    Scan.Agree source.Admits source.Admits (Scan.nextIf source.peek source.advance test)
      (Scan.nextIf (source.readAs .bytes).peek (source.readAs .bytes).advance test) := by
  intro position admits
  rcases Nat.lt_or_eq_of_le admits.le_stop with before | atEnd
  · obtain ⟨unit, found⟩ := admits.exists_unitAt before
    obtain ⟨byte, byteFound, whole⟩ := found.exists_byteAt isText admits
    rw [found.nextIf_eq, byteFound.nextIf_eq]
    by_cases ascii : unit < 0x80 ∨ byte < 0x80
    · obtain ⟨rfl, width⟩ := whole ascii
      have next := found.admits_next
      rw [width] at next ⊢
      refine ⟨rfl, fun value moved answer => ?_⟩
      split at answer
      · cases answer
        exact next
      · cases answer
        exact admits
    · have unitFails : test unit = false :=
        Bool.eq_false_iff.mpr fun passes => ascii (.inl (asciiOnly unit passes))
      have byteFails : test byte = false :=
        Bool.eq_false_iff.mpr fun passes => ascii (.inr (asciiOnly byte passes))
      rw [unitFails, byteFails]
      exact Scan.Agree.pure none position admits
  · subst atEnd
    rw [source.nextIf_stop]
    refine ⟨(source.readAs .bytes).nextIf_stop test, ?_⟩
    rintro _ _ ⟨rfl, rfl⟩
    exact admits

omit isText in
theorem restore_agree {target : Nat} (admits : source.Admits target) :
    Scan.Agree source.Admits source.Admits (source.restore target)
      ((source.readAs .bytes).restore target) := by
  intro position _
  rw [admits.restore_eq, admits.byBytes.restore_eq]
  refine ⟨rfl, ?_⟩
  rintro _ _ ⟨rfl, rfl⟩
  exact admits

end Agreement

end Source

/-! ## Moves of a view -/

namespace View

/-- The same layers over a buffer that is read in another mode. -/
def readAs (mode : Mode) (view : View) : View :=
  { view with source := view.source.readAs mode }

variable {source : Source} {position : Nat}

section Agreement

variable (isText : source.mode = .text)

include isText

/-- An ASCII unit has the same bytes in both modes, so that the search for it is the same. It ends
before that unit or at the end. -/
theorem leapUntil_agree {literal : Literal} {unit : Code}
    (coerced : ∀ mode : Mode, mode.unit? literal = .ok unit) (ascii : unit < 0x80) :
    Scan.Agree source.Admits source.AsciiAhead (leapUntil source (.literal literal))
      (leapUntil (source.readAs .bytes) (.literal literal)) := by
  have holds (mode : Mode) : mode.Holds unit :=
    Mode.holds_of_unit? (coerced mode) (Code.isScalar_of_ascii ascii)
  have sameBytes : source.mode.unitBytes unit = Mode.unitBytes .bytes unit := by
    rw [isText]
    exact if_pos ascii
  have byBytes : leapUntil (source.readAs .bytes) (.literal literal) =
      source.seek (Mode.unitBytes .bytes unit) :=
    @leapUntil_literal (source.readAs .bytes) literal unit (coerced .bytes) (holds .bytes)
  rw [byBytes, ← sameBytes, leapUntil_literal (coerced source.mode) (holds source.mode)]
  intro position admits
  refine ⟨rfl, fun value moved answer => ?_⟩
  obtain ⟨last, landed, lastAdmits, -, ahead⟩ := admits.seek_leaves (holds source.mode)
  cases answer.symm.trans landed
  refine ⟨lastAdmits, fun found member => ?_⟩
  have stopped := List.head?_dropWhile_not (· != unit) (source.unitsFrom position)
  rw [← ahead, Option.mem_def.mp member] at stopped
  have isUnit : found = unit := by simpa using stopped
  exact isUnit ▸ ascii

theorem nextWith_agree (start : Nat) {test : Code → Bool} (asciiOnly : Source.AsciiOnly test) :
    Scan.Agree source.Admits source.Admits (nextWith (recordFrom ⟨source, []⟩ start) test)
      (nextWith (recordFrom ⟨source.readAs .bytes, []⟩ start) test) := by
  simp only [nextWith, peek, advance, recordFrom, peekThrough, advanceThrough]
  exact source.nextIf_agree isText asciiOnly

section Patterns

variable (start : Nat) {pattern : Pattern} {test : Code → Bool}
  (matched : ∀ mode : Mode, pattern.test? mode = .ok test) (asciiOnly : Source.AsciiOnly test)

include matched asciiOnly

theorem nextIf_agree :
    Scan.Agree source.Admits source.Admits (nextIf (recordFrom ⟨source, []⟩ start) pattern)
      (nextIf (recordFrom ⟨source.readAs .bytes, []⟩ start) pattern) :=
  .ofExcept_bind (matched _) (matched _) (nextWith_agree isText start asciiOnly)

theorem countRun_agree :
    Scan.Agree source.Admits source.Admits (countRun (recordFrom ⟨source, []⟩ start) pattern)
      (countRun (recordFrom ⟨source.readAs .bytes, []⟩ start) pattern) := by
  refine .ofExcept_bind (matched _) (matched _) (.position_bind fun mark _ => ?_)
  exact (nextWith_agree isText start asciiOnly).countLoop _ 0

end Patterns

omit isText in
/-- What is recorded does not depend on the mode. -/
theorem recordedText_agree (placed : Nat → Prop) (start : Nat) :
    Scan.Agree placed placed (recordedText (recordFrom ⟨source, []⟩ start))
      (recordedText (recordFrom ⟨source.readAs .bytes, []⟩ start)) := by
  have range : Scan.Agree placed placed (recordedRange (recordFrom ⟨source, []⟩ start))
      (recordedRange (recordFrom ⟨source.readAs .bytes, []⟩ start)) := by
    refine .position_bind fun position _ => ?_
    split
    · exact .refuse _
    · exact .pure _
  refine range.bind fun range => ?_
  dsimp only [Source.readAs, recordFrom]
  split
  · exact .pure _
  · exact .refuse _

omit isText in
theorem restText_agree (start : Nat) :
    Scan.Agree source.Admits source.Admits (restText (recordFrom ⟨source, []⟩ start))
      (restText (recordFrom ⟨source.readAs .bytes, []⟩ start)) := by
  have consumed : Scan.Agree source.Admits source.Admits
      (consume (recordFrom ⟨source, []⟩ start))
      (consume (recordFrom ⟨source.readAs .bytes, []⟩ start)) := by
    intro position admits
    refine ⟨rfl, ?_⟩
    rintro _ _ ⟨rfl, rfl⟩
    exact admits.admits_stop
  exact consumed.bind fun _ => recordedText_agree source.Admits start

/-! ## Key/value lines -/

/-- A line is read the same in both modes: it is searched for a colon, and cut there. -/
theorem keyValue_agree :
    Scan.Agree source.Admits source.Admits (keyValue ⟨source, []⟩)
      (keyValue ⟨source.readAs .bytes, []⟩) := by
  have ascii : ':'.toNat < 0x80 := by decide
  refine (Scan.Agree.ofExcept _).bind fun span => ?_
  refine .position_bind fun keyStart _ => ?_
  refine (leapUntil_agree isText (Mode.unit?_of_ascii · ascii) ascii).bind fun _ => ?_
  refine (recordedText_agree source.AsciiAhead keyStart).bind fun key => ?_
  refine (source.advance_agree isText).bind fun colon => ?_
  cases colon with
  | none => exact .pure _
  | some unit => exact .position_bind fun start _ => (restText_agree start).bind fun _ => .pure _

/-! ## Numbers -/

/-- A number is read the same in both modes: each of its units is a digit, a sign or a point. -/
theorem number_agree :
    Scan.Agree source.Admits source.Admits (number ⟨source, []⟩)
      (number ⟨source.readAs .bytes, []⟩) := by
  have character {char : Char} (ascii : char.toNat < 0x80) (mark : Nat) :=
    @nextIf_agree source isText mark (View.character char) _ (character_test? char · ascii)
      fun unit passes => by rwa [eq_of_beq passes]
  have digit : Source.AsciiOnly Code.isAsciiDigit := by
    intro unit passes
    simp only [Code.isAsciiDigit, Bool.and_eq_true, decide_eq_true_eq] at passes
    exact Nat.lt_of_le_of_lt passes.2 (by decide)
  have digits (mark : Nat) := @countRun_agree source isText mark View.digits _ (fun _ => rfl) digit
  refine .position_bind fun mark markAdmits => ?_
  refine (character (by decide) mark).bind fun sign => ?_
  refine (digits mark).bind fun count => ?_
  split
  · exact (source.restore_agree markAdmits).bind fun _ => .pure none
  · refine (character (by decide) mark).bind fun point => ?_
    cases point with
    | none =>
        have recorded : Scan.Agree source.Admits source.Admits
            (recordedInteger (recordFrom ⟨source, []⟩ mark))
            (recordedInteger (recordFrom ⟨source.readAs .bytes, []⟩ mark)) := by
          refine (recordedText_agree source.Admits mark).bind fun text => ?_
          split
          · exact .pure _
          · exact .refuse _
          · exact .refuse _
        exact recorded.bind fun value => (Scan.Agree.ofExcept _).bind fun _ => .pure _
    | some unit =>
        have recorded : Scan.Agree source.Admits source.Admits
            (recordedReal (recordFrom ⟨source, []⟩ mark))
            (recordedReal (recordFrom ⟨source.readAs .bytes, []⟩ mark)) := by
          refine (recordedText_agree source.Admits mark).bind fun text => ?_
          split
          · exact .pure _
          · exact .refuse _
        refine Scan.Agree.bind ((digits mark).bind fun _ => .pure ()) fun _ => ?_
        exact recorded.bind fun value => (Scan.Agree.ofExcept _).bind fun _ => .pure _

/-- A number that must fill its cursor is the same in both modes, and so is its refusal, up to the
unit that is found where the end was expected. -/
theorem wholeNumber_cases (admits : source.Admits position) :
    wholeNumber ⟨source.readAs .bytes, []⟩ position = wholeNumber ⟨source, []⟩ position ∨
      ∃ byte unit offset,
        wholeNumber ⟨source.readAs .bytes, []⟩ position =
          (.error (.unexpected .bytes (some byte) offset), offset) ∧
        wholeNumber ⟨source, []⟩ position =
          (.error (.unexpected .text (some unit) offset), offset) := by
  obtain ⟨same, lands⟩ := number_agree isText position admits
  simp only [wholeNumber, Scan.position_bind]
  cases answer : number ⟨source, []⟩ position with
  | mk result moved =>
      rw [answer] at same
      cases result with
      | error fault =>
          left
          rw [Scan.bind_of_error same, Scan.bind_of_error answer]
      | ok found =>
          rw [Scan.bind_of_ok same, Scan.bind_of_ok answer]
          cases found with
          | none => exact .inl rfl
          | some found =>
              have movedAdmits := lands _ moved answer
              rcases Nat.lt_or_eq_of_le movedAdmits.le_stop with before | atEnd
              · right
                obtain ⟨unit, unitFound⟩ := movedAdmits.exists_unitAt before
                obtain ⟨byte, byteFound⟩ := movedAdmits.byBytes.exists_unitAt before
                refine ⟨byte, unit, moved, ?_, ?_⟩
                · exact Scan.bind_of_error (Scan.bind_of_ok byteFound.peek_eq)
                · rw [← isText]
                  exact Scan.bind_of_error (Scan.bind_of_ok unitFound.peek_eq)
              · left
                subst atEnd
                have ends (other : Source) :
                    expectEnd ⟨other, []⟩ other.stop = (.ok (), other.stop) :=
                  Scan.bind_of_ok other.peek_stop
                dsimp only
                rw [Scan.bind_of_ok (ends source)]
                exact Scan.bind_of_ok (ends (source.readAs .bytes))

/-! ## Splitting -/

omit isText in
/-- The next segment of a bare source, from what its two moves do. -/
private theorem nextSegment_of_moves {delimiter : Pattern} {last moved : Nat} {unit : Option Code}
    (admits : source.Admits position) (lastAdmits : source.Admits last) (forward : position ≤ last)
    (leapt : leapUntil source delimiter position = (.ok (), last))
    (taken : source.advance last = (.ok unit, moved)) :
    nextSegment ⟨source, []⟩ delimiter ⟨position, false⟩ =
      (.ok ⟨source.narrowed position last, []⟩, ⟨moved, unit.isNone⟩) := by
  have consumed : consumeUntil ⟨source, []⟩ delimiter position = (.ok (), last) := leapt
  have advanced : advance ⟨source, []⟩ last = (.ok unit, moved) := taken
  simp only [nextSegment, consumed, advanced, bounded, admits.bounded_eq lastAdmits forward,
    Bool.false_eq_true, if_false]
  rfl

section Splitting

variable {literal : Literal} {delimiter : Code}
  (coerced : ∀ mode : Mode, mode.unit? literal = .ok delimiter) (ascii : delimiter < 0x80)

include coerced ascii

/-- The next segment has the same bounds in both modes, and the parents stand at the same place
afterwards. -/
theorem nextSegment_readAs (admits : source.Admits position) :
    ∃ last progress, source.Admits progress.position ∧
      nextSegment ⟨source, []⟩ (.literal literal) ⟨position, false⟩ =
        (.ok ⟨source.narrowed position last, []⟩, progress) ∧
      nextSegment ⟨source.readAs .bytes, []⟩ (.literal literal) ⟨position, false⟩ =
        (.ok ⟨(source.narrowed position last).readAs .bytes, []⟩, progress) := by
  have holds := Mode.holds_of_unit? (coerced source.mode) (Code.isScalar_of_ascii ascii)
  obtain ⟨last, sought, lastAdmits, forward, -⟩ := admits.seek_leaves holds
  have leapt : leapUntil source (.literal literal) position = (.ok (), last) := by
    rw [leapUntil_literal (coerced source.mode) holds, sought]
  obtain ⟨moved, taken, movedAdmits, -⟩ := source.reads.advance_leaves lastAdmits
  obtain ⟨leaptSame, lands⟩ := leapUntil_agree isText coerced ascii position admits
  obtain ⟨takenSame, -⟩ := source.advance_agree isText last (lands _ _ leapt)
  exact ⟨last, _, movedAdmits, nextSegment_of_moves admits lastAdmits forward leapt taken,
    nextSegment_of_moves admits.byBytes lastAdmits.byBytes forward (leaptSame.trans leapt)
      (takenSame.trans taken)⟩

/-- Splitting a text at an ASCII unit hands out the same segments in both modes. -/
theorem HandsOut.readAs {progress last : Progress} {segments : List View}
    (handsOut : HandsOut ⟨source, []⟩ (.literal literal) progress segments last)
    (admits : source.Admits progress.position) :
    HandsOut ⟨source.readAs .bytes, []⟩ (.literal literal) progress
      (segments.map (View.readAs .bytes)) last := by
  induction handsOut with
  | @done progress spent =>
      refine .done ?_
      obtain ⟨position, exhausted⟩ := progress
      cases exhausted with
      | true => rfl
      | false =>
          obtain ⟨last, moved, -, given, -⟩ := nextSegment_readAs isText coerced ascii admits
          cases spent.symm.trans given
  | @next progress moved last segment segments given rest inductionHypothesis =>
      obtain ⟨position, exhausted⟩ := progress
      cases exhausted with
      | true => cases given
      | false =>
          obtain ⟨last, next, nextAdmits, givenText, givenBytes⟩ :=
            nextSegment_readAs isText coerced ascii admits
          cases given.symm.trans givenText
          exact .next givenBytes (inductionHypothesis nextAdmits)

/-- The records of all lines are the same in both modes. -/
theorem keyValues_readAs (admits : source.Admits position) :
    ∃ lines, keyValues ⟨source, []⟩ (.literal literal) position = (.ok lines, source.stop) ∧
      keyValues ⟨source.readAs .bytes, []⟩ (.literal literal) position =
        (.ok lines, source.stop) := by
  have searchable := Pattern.searchable_literal (coerced source.mode) (Code.isScalar_of_ascii ascii)
  obtain ⟨segments, handsOut, tiles, read⟩ :=
    keyValues_eq (Pattern.test?_literal (coerced source.mode)) searchable admits isText
  refine ⟨_, read, ?_⟩
  have byBytes := handsOut.readAs isText coerced ascii admits
  have back : ∀ segment ∈ segments, segment.source.readAs .text = segment.source := by
    intro segment member
    obtain ⟨first, last, rfl, -⟩ := tiles.segment_of_mem member
    exact Source.readAs_self isText
  have visits : ∀ segment ∈ segments.map (readAs .bytes),
      (keyValue segment segment.source.start).1 =
        .ok ((segment.source.readAs .text).lineFrom segment.source.start) := by
    intro _ member
    obtain ⟨segment, isSegment, rfl⟩ := List.mem_map.mp member
    show _ = Except.ok ((segment.source.readAs .text).lineFrom _)
    rw [back segment isSegment]
    obtain ⟨first, last, rfl, firstAdmits, lastAdmits, ordered, -⟩ := tiles.segment_of_mem isSegment
    have startAdmits := (firstAdmits.wellFormed_narrowed lastAdmits ordered).admits_start
    have same := (@keyValue_agree (source.narrowed first last) isText _ startAdmits).1
    rw [keyValue_eq startAdmits isText] at same
    exact congrArg Prod.fst same
  have few : (segments.map (readAs .bytes)).length ≤ source.stop - position + 1 := by
    rw [List.length_map]
    exact tiles.length_le
  have swept := byBytes.sweep_eq visits few
  have passed : (Pattern.literal literal).test? (mode ⟨source.readAs .bytes, []⟩) = _ :=
    Pattern.test?_literal (coerced .bytes)
  have sameLines : (segments.map (readAs .bytes)).map (fun segment =>
      (segment.source.readAs .text).lineFrom segment.source.start) =
      segments.map fun segment => segment.source.lineFrom segment.source.start := by
    rw [List.map_map]
    apply List.map_congr_left
    intro segment member
    show (segment.source.readAs .text).lineFrom _ = _
    rw [back segment member]
    rfl
  simp only [keyValues, passed, swept, sameLines]

end Splitting

end Agreement

/-! ## Both modes -/

/-- **A text is the same by bytes and by scalars.** Take any bytes that are UTF-8 and a delimiter
that is ASCII. Both readers accept the bytes, and from every place between two scalars: splitting
hands out segments with the same bounds and the same texts; key/value lines are the same records,
read up to the same place; a number is the same, also when there is none, and leaves the reader at
the same place; and a number that must fill the rest is the same or is refused alike, up to the
unit that stands at the same offset where the end was expected. -/
theorem modes_agree_on_utf8 (bytes : List UInt8) (text : Text) (literal : Literal)
    (delimiter : Code) (decoded : Utf8.decode bytes = .ok text)
    (coerced : ∀ mode : Mode, mode.unit? literal = .ok delimiter) (ascii : delimiter < 0x80) :
    ∃ byBytes byText : Source,
      Source.ofInput .bytes (.bytes bytes) = .ok byBytes ∧
      Source.ofInput .text (.bytes bytes) = .ok byText ∧
      ∀ position, Utf8.ScalarBoundary bytes position →
        (∃ fromBytes fromText : List View, ∃ texts : List Text,
          HandsOut ⟨byBytes, []⟩ (.literal literal) ⟨position, false⟩ fromBytes
            ⟨bytes.length, true⟩ ∧
          HandsOut ⟨byText, []⟩ (.literal literal) ⟨position, false⟩ fromText
            ⟨bytes.length, true⟩ ∧
          (fromBytes.map fun segment => (segment.source.start, segment.source.stop)) =
            (fromText.map fun segment => (segment.source.start, segment.source.stop)) ∧
          (fromBytes.map fun segment =>
            (restText (segment.recordFrom segment.source.start) segment.source.start).1) =
            texts.map .ok ∧
          (fromText.map fun segment =>
            (restText (segment.recordFrom segment.source.start) segment.source.start).1) =
            texts.map .ok) ∧
        (∃ lines, keyValues ⟨byBytes, []⟩ (.literal literal) position =
            (.ok lines, bytes.length) ∧
          keyValues ⟨byText, []⟩ (.literal literal) position = (.ok lines, bytes.length)) ∧
        number ⟨byBytes, []⟩ position = number ⟨byText, []⟩ position ∧
        (wholeNumber ⟨byBytes, []⟩ position = wholeNumber ⟨byText, []⟩ position ∨
          ∃ byte unit offset,
            wholeNumber ⟨byBytes, []⟩ position =
              (.error (.unexpected .bytes (some byte) offset), offset) ∧
            wholeNumber ⟨byText, []⟩ position =
              (.error (.unexpected .text (some unit) offset), offset)) := by
  let byText : Source := ⟨.text, bytes.toArray, 0, bytes.length⟩
  have isText : byText.mode = .text := rfl
  have accepted : Source.ofInput .text (.bytes bytes) = .ok byText := by
    simp only [Source.ofInput, Source.ofUtf8, decoded]
    rfl
  have wellFormed := Source.wellFormed_ofInput (by rintro text ⟨⟩) accepted
  refine ⟨byText.readAs .bytes, byText, rfl, accepted, fun position boundary => ?_⟩
  have admits : byText.Admits position :=
    ⟨wellFormed, Nat.zero_le _, boundary.le_length, fun _ => boundary⟩
  refine ⟨?_, ?_, (number_agree isText position admits).1, wholeNumber_cases isText admits⟩
  · have searchable := Pattern.searchable_literal (coerced .text) (Code.isScalar_of_ascii ascii)
    obtain ⟨segments, handsOut, tiles⟩ :=
      @exists_tiles byText position _ _ (Pattern.test?_literal (coerced .text)) searchable admits
    have texts : ∀ segment ∈ segments,
        (restText (recordFrom (segment.readAs .bytes) segment.source.start)
          segment.source.start).1 = .ok (segment.source.unitsFrom segment.source.start) ∧
        (restText (segment.recordFrom segment.source.start) segment.source.start).1 =
          .ok (segment.source.unitsFrom segment.source.start) := by
      intro segment member
      obtain ⟨first, last, rfl, firstAdmits, lastAdmits, ordered, -⟩ :=
        tiles.segment_of_mem member
      have segmentFormed := firstAdmits.wellFormed_narrowed lastAdmits ordered
      have inText := restText_whole segmentFormed isText
      have same := (restText_agree first first segmentFormed.admits_start).1
      exact ⟨congrArg Prod.fst (same.trans inText), congrArg Prod.fst inText⟩
    refine ⟨segments.map (readAs .bytes), segments,
      segments.map fun segment => segment.source.unitsFrom segment.source.start,
      handsOut.readAs isText coerced ascii admits, handsOut, ?_, ?_, ?_⟩
    · rw [List.map_map]
      rfl
    · rw [List.map_map, List.map_map]
      exact List.map_congr_left fun segment member => (texts segment member).1
    · rw [List.map_map]
      exact List.map_congr_left fun segment member => (texts segment member).2
  · obtain ⟨lines, inText, inBytes⟩ := keyValues_readAs isText coerced ascii admits
    exact ⟨lines, inBytes, inText⟩

/-- The text `é,1é`: a delimiter after a unit of two bytes, and a number before one. -/
theorem modes_agree_on_utf8_two_byte_units :
    let bytes : List UInt8 := [0xC3, 0xA9, 0x2C, 0x31, 0xC3, 0xA9]
    Utf8.decode bytes = .ok [0xE9, 0x2C, 0x31, 0xE9] ∧ Utf8.ScalarBoundary bytes 3 ∧
      ∃ byBytes byText : Source,
        Source.ofInput .bytes (.bytes bytes) = .ok byBytes ∧
        Source.ofInput .text (.bytes bytes) = .ok byText ∧
        number ⟨byBytes, []⟩ 3 = number ⟨byText, []⟩ 3 ∧
        ∃ lines, keyValues ⟨byBytes, []⟩ (.literal (.bytes [0x2C])) 3 = (.ok lines, 6) ∧
          keyValues ⟨byText, []⟩ (.literal (.bytes [0x2C])) 3 = (.ok lines, 6) := by
  intro bytes
  have decoded : Utf8.decode bytes = .ok [0xE9, 0x2C, 0x31, 0xE9] :=
    Utf8.decode_eq_ok_iff.mpr ⟨by simp [Code.isScalar_iff], by decide⟩
  have boundary : Utf8.ScalarBoundary bytes 3 := ⟨[0xE9, 0x2C], [0x31, 0xE9], decoded, by decide⟩
  have coerced (mode : Mode) : mode.unit? (.bytes [0x2C]) = .ok 0x2C := by
    cases mode with
    | bytes => rfl
    | text =>
        have comma : Utf8.decode [0x2C] = .ok [0x2C] :=
          Utf8.decode_eq_ok_iff.mpr ⟨by simp [Code.isScalar_iff], by decide⟩
        simp [Mode.unit?, Literal.character?, comma]
  obtain ⟨byBytes, byText, bytesAccepted, textAccepted, agree⟩ :=
    modes_agree_on_utf8 bytes _ (.bytes [0x2C]) 0x2C decoded coerced (by decide)
  obtain ⟨-, lines, number, -⟩ := agree 3 boundary
  exact ⟨decoded, boundary, byBytes, byText, bytesAccepted, textAccepted, number, lines⟩

end View

end RecordScan
