import RecordScan.Proofs.Scan.Visible
import RecordScan.Scan.Split

/-!
Contract: scans keep to the positions of a source.

Owns: the refusals that blame no byte of the buffer (`Fault.Benign`); results that
stand at a position the source admits, at or past a floor, and are refused only so
(`Scan.Kept`); scans with only such results (`Scan.Keeps`), with one rule for each way
scans are put together; and the proof that every move, consumer and recording of a view keeps,
and every sweep over its segments, whatever layers the view has.

Does not own: grammars (`RecordScan.Proofs.Grammar.Keeping`).

Unlike the laws of visible units, these hold wherever the recordings of a view
start: a scan need not answer, and one that is refused keeps as well. With the floor
at the position where a scan began, it says that the scan does not go back.
-/

namespace RecordScan

/-- A refusal that neither runs out of the buffer nor calls a text ill-formed. -/
def Fault.Benign (mode : Mode) : Fault → Prop
  | .indexRange => False
  | .utf8 _ _ => mode = .bytes
  | _ => True

/-- A position of a source at or past a floor. -/
structure Source.AdmitsFrom (source : Source) (floor position : Nat) : Prop
    extends source.Admits position where
  floor_le : floor ≤ position

theorem Source.Admits.fromSelf {source : Source} {position : Nat}
    (admits : source.Admits position) : source.AdmitsFrom position position :=
  ⟨admits, Nat.le_refl position⟩

theorem Source.AdmitsFrom.forward {source : Source} {floor position moved : Nat}
    (admits : source.AdmitsFrom floor position) (movedAdmits : source.Admits moved)
    (further : position ≤ moved) : source.AdmitsFrom floor moved :=
  ⟨movedAdmits, Nat.le_trans admits.floor_le further⟩

namespace Scan

/-- A scan ended at a position of the source, at or past a floor, and was refused at most for a
benign cause. -/
structure Kept {α : Type} (source : Source) (floor : Nat) (result : Except Fault α × Nat) :
    Prop where
  admits : source.AdmitsFrom floor result.2
  benign : ∀ fault, result.1 = .error fault → fault.Benign source.mode

/-- A scan that ends so from every position at or past the floor. -/
def Keeps {α : Type} (source : Source) (floor : Nat) (scan : Scan α) : Prop :=
  ∀ position, source.AdmitsFrom floor position → Kept source floor (scan position)

variable {α β : Type} {source : Source} {floor : Nat}

theorem Kept.ok {value : α} {moved : Nat} (admits : source.AdmitsFrom floor moved) :
    Kept source floor (.ok value, moved) :=
  ⟨admits, nofun⟩

theorem Kept.error {fault : Fault} {moved : Nat} (admits : source.AdmitsFrom floor moved)
    (benign : fault.Benign source.mode) :
    Kept source floor ((.error fault, moved) : Except Fault α × Nat) := by
  refine ⟨admits, fun cause isCause => ?_⟩
  cases isCause
  exact benign

/-- The refusal of one scan is kept as the refusal of another. -/
theorem Kept.refused {fault : Fault} {moved : Nat}
    (kept : Kept source floor ((.error fault, moved) : Except Fault α × Nat)) :
    Kept source floor ((.error fault, moved) : Except Fault β × Nat) :=
  .error kept.admits (kept.benign fault rfl)

namespace Keeps

/-! ## Putting scans together -/

theorem pure (value : α) : Keeps source floor (Pure.pure value) :=
  fun _ admits => .ok admits

theorem bind {scan : Scan α} {next : α → Scan β} (first : Keeps source floor scan)
    (second : ∀ value, Keeps source floor (next value)) : Keeps source floor (scan >>= next) := by
  intro position admits
  have kept := first position admits
  cases answer : scan position with
  | mk result moved =>
      rw [answer] at kept
      cases result with
      | ok value =>
          rw [bind_of_ok answer]
          exact second value moved kept.admits
      | error fault =>
          rw [bind_of_error answer]
          exact kept.refused

theorem map {scan : Scan α} (answer : α → β) (keeps : Keeps source floor scan) :
    Keeps source floor (scan >>= fun value => Pure.pure (answer value)) :=
  keeps.bind fun value => pure (answer value)

theorem position_bind {next : Nat → Scan β}
    (keeps : ∀ place, source.AdmitsFrom floor place → Keeps source floor (next place)) :
    Keeps source floor (Scan.position >>= next) :=
  fun position admits => keeps position admits position admits

theorem refuse {fault : Fault} (benign : fault.Benign source.mode) :
    Keeps source floor (Scan.refuse fault : Scan α) :=
  fun _ admits => .error admits benign

theorem ofExcept_bind {result : Except Fault α} {next : α → Scan β}
    (benign : ∀ fault, result = .error fault → fault.Benign source.mode)
    (keeps : ∀ value, result = .ok value → Keeps source floor (next value)) :
    Keeps source floor (Scan.ofExcept result >>= next) := by
  cases result with
  | ok value => exact keeps value rfl
  | error fault => exact refuse (benign fault rfl)

theorem ofExcept {result : Except Fault α}
    (benign : ∀ fault, result = .error fault → fault.Benign source.mode) :
    Keeps source floor (Scan.ofExcept result) :=
  fun _ admits => ⟨admits, benign⟩

theorem lookAhead {scan : Scan α} {restore : Int → Scan Unit} (keeps : Keeps source floor scan)
    (back : ∀ place : Nat, source.AdmitsFrom floor place → Keeps source floor (restore place)) :
    Keeps source floor (Scan.lookAhead restore scan) := by
  intro position admits
  have kept := keeps position admits
  have backKept := back position admits (scan position).2 kept.admits
  simp only [Scan.lookAhead]
  split
  · next returned =>
      rw [returned] at backKept
      exact ⟨backKept.admits, kept.benign⟩
  · next returned =>
      rw [returned] at backKept
      exact backKept.refused

/-! ## Loops -/

section Loops

variable {peek advance step : Scan (Option Code)}

theorem nextIf (peekKeeps : Keeps source floor peek) (advanceKeeps : Keeps source floor advance)
    (test : Code → Bool) : Keeps source floor (Scan.nextIf peek advance test) := by
  refine peekKeeps.bind fun found => ?_
  cases found with
  | none => exact pure none
  | some unit =>
      show Keeps source floor (if test unit then advance else Pure.pure none)
      split
      · exact advanceKeeps
      · exact pure none

theorem countLoop (keeps : Keeps source floor step) (rounds count : Nat) :
    Keeps source floor (Scan.countLoop step rounds count) := by
  induction rounds generalizing count with
  | zero => exact pure count
  | succ rounds inductionHypothesis =>
      refine keeps.bind fun found => ?_
      cases found with
      | none => exact pure count
      | some _ => exact inductionHypothesis (count + 1)

theorem takeLoop (keeps : Keeps source floor step) (needed : Int) (rounds taken : Nat) :
    Keeps source floor (Scan.takeLoop step needed rounds taken) := by
  induction rounds generalizing taken with
  | zero => exact pure ()
  | succ rounds inductionHypothesis =>
      refine keeps.bind fun found => ?_
      cases found with
      | none => exact refuse trivial
      | some _ => exact inductionHypothesis (taken + 1)

theorem lastLoop (keeps : Keeps source floor step) (rounds : Nat) (last : Option Code) :
    Keeps source floor (Scan.lastLoop step rounds last) := by
  induction rounds generalizing last with
  | zero => exact pure last
  | succ rounds inductionHypothesis =>
      refine keeps.bind fun found => ?_
      cases found with
      | none => exact pure none
      | some unit => exact inductionHypothesis (some unit)

theorem unitsLoop (keeps : Keeps source floor step) (rounds : Nat) (units : Array Code) :
    Keeps source floor (Scan.unitsLoop step rounds units) := by
  induction rounds generalizing units with
  | zero => exact pure units.toList
  | succ rounds inductionHypothesis =>
      refine keeps.bind fun found => ?_
      cases found with
      | none => exact pure units.toList
      | some unit => exact inductionHypothesis (units.push unit)

end Loops

end Keeps

end Scan

/-! ## Causes -/

theorem Mode.benign_of_unit? {mode : Mode} {literal : Literal} {fault : Fault}
    (refused : mode.unit? literal = .error fault) : fault.Benign mode := by
  cases mode with
  | bytes =>
      simp only [Mode.unit?, Literal.byte?] at refused
      repeat' split at refused
      all_goals cases refused
      all_goals exact trivial
  | text =>
      simp only [Mode.unit?, Literal.character?] at refused
      repeat' split at refused
      all_goals cases refused
      all_goals exact trivial

theorem Mode.benign_of_encodeUnit {mode : Mode} {unit : Code} {fault : Fault}
    (refused : mode.encodeUnit unit = .error fault) : fault.Benign mode := by
  cases mode with
  | bytes => cases refused
  | text =>
      simp only [Mode.encodeUnit] at refused
      split at refused
      · cases refused
        exact trivial
      · cases refused

theorem Pattern.benign_of_test? {pattern : Pattern} {mode : Mode} {fault : Fault}
    (refused : pattern.test? mode = .error fault) : fault.Benign mode := by
  cases pattern with
  | satisfying test => cases refused
  | literal given =>
      simp only [Pattern.test?] at refused
      cases answer : mode.unit? given with
      | ok unit =>
          rw [answer] at refused
          cases refused
      | error cause =>
          rw [answer] at refused
          cases refused
          exact Mode.benign_of_unit? answer

theorem Span.benign_of_checked {mode : Mode} {start stop : Nat} {fault : Fault}
    (refused : Span.checked start stop = .error fault) : fault.Benign mode := by
  unfold Span.checked at refused
  split at refused
  · cases refused
    exact trivial
  · cases refused

/-! ## Moves -/

open Scan (Keeps)

variable {floor : Nat}

namespace Source

theorem peek_keeps (source : Source) : Keeps source floor source.peek := by
  intro position admits
  rw [admits.peek_eq]
  exact .ok admits

theorem advance_keeps (source : Source) : Keeps source floor source.advance := by
  intro position admits
  rcases Nat.lt_or_eq_of_le admits.le_stop with before | atEnd
  · obtain ⟨unit, found, answer⟩ := admits.advance_of_lt before
    rw [answer]
    exact .ok (admits.forward found.admits_next (Nat.le_add_right _ _))
  · rw [atEnd] at admits ⊢
    rw [advance_stop]
    exact .ok admits

theorem rounds_keeps (source : Source) : Keeps source floor source.rounds :=
  .position_bind fun _ _ => .pure _

theorem moveToStop_keeps (source : Source) : Keeps source floor (Scan.moveTo source.stop) :=
  fun _ admits => .ok (admits.forward admits.admits_stop admits.le_stop)

theorem seek_keeps (source : Source) (unit : Code) :
    Keeps source floor (source.seek (source.mode.unitBytes unit)) := by
  intro position admits
  obtain ⟨moved, answer, movedAdmits, further⟩ := admits.seek_admits unit
  rw [answer]
  exact .ok (admits.forward movedAdmits further)

end Source

namespace View

/-! ## Primitive moves of a view -/

/-- Returning to a place: it is a position that lies in all recordings, or the position stays and
the cause is benign, or it is that the place is inside a scalar. -/
theorem restore_cases {view : View} (wellFormed : view.source.WellFormed) (target : Int)
    (position : Nat) :
    (∃ place : Nat, target = place ∧ view.Placed place ∧
      view.restore target position = (.ok (), place)) ∨
    (∃ fault, fault.Benign view.source.mode ∧
      view.restore target position = (.error fault, position)) ∨
    (∃ place : Nat, target = place ∧ ¬ view.source.Boundary place ∧
      view.restore target position = (.error (.utf8 place .insideSequence), position)) := by
  obtain ⟨source, layers⟩ := view
  induction layers with
  | nil =>
      rcases wellFormed.restore_cases target position with
        ⟨place, rfl, admits, answer⟩ | ⟨-, refusal⟩ | ⟨place, rfl, inside, refusal⟩
      · exact .inl ⟨place, rfl, ⟨admits, nofun⟩, answer⟩
      · exact .inr (.inl ⟨.positionOutside .., trivial, refusal⟩)
      · exact .inr (.inr ⟨place, rfl, inside, refusal⟩)
  | cons layer inner inductionHypothesis =>
      cases layer with
      | recording start =>
          simp only [restore, restoreThrough]
          split
          · exact .inr (.inl ⟨.positionBeforeRecording target start, trivial, rfl⟩)
          · next started =>
              refine (inductionHypothesis wellFormed).imp_left ?_
              rintro ⟨place, rfl, placed, answer⟩
              refine ⟨place, rfl, placed.of_inner ?_, answer⟩
              rintro other ⟨rfl⟩
              omega
      | ignoring unit =>
          refine (inductionHypothesis wellFormed).imp_left ?_
          rintro ⟨place, rfl, placed, answer⟩
          exact ⟨place, rfl, placed.of_inner (by rintro start ⟨⟩), answer⟩
      | stopped =>
          refine (inductionHypothesis wellFormed).imp_left ?_
          rintro ⟨place, rfl, placed, answer⟩
          exact ⟨place, rfl, placed.of_inner (by rintro start ⟨⟩), answer⟩

theorem restore_keeps (view : View) {place : Nat} (admits : view.source.AdmitsFrom floor place) :
    Keeps view.source floor (view.restore place) := by
  intro position positionAdmits
  rcases restore_cases admits.toWellFormed place position with
    ⟨other, isPlace, -, answer⟩ | ⟨fault, benign, refusal⟩ | ⟨other, isPlace, inside, -⟩
  · rw [answer, ← Int.ofNat.inj isPlace]
    exact .ok admits
  · rw [refusal]
    exact .error positionAdmits benign
  · exact absurd (Int.ofNat.inj isPlace ▸ admits.boundary) inside

theorem skipAndAdvance_keeps {source : Source} (unit : Code) {peek advance : Scan (Option Code)}
    (peekKeeps : Keeps source floor peek) (advanceKeeps : Keeps source floor advance) :
    Keeps source floor (skipAndAdvance source unit peek advance) := by
  refine source.rounds_keeps.bind fun rounds => ?_
  refine Keeps.bind ?_ fun _ => advanceKeeps
  exact (peekKeeps.nextIf advanceKeeps _).countLoop rounds 0

/-- Looking and moving keep on every layer, since the inner ones do. -/
theorem keeps_through (source : Source) (layers : List Layer) :
    Keeps source floor (peekThrough source layers) ∧
      Keeps source floor (advanceThrough source layers) := by
  induction layers with
  | nil =>
      rw [peekThrough, advanceThrough]
      exact ⟨source.peek_keeps, source.advance_keeps⟩
  | cons layer inner inductionHypothesis =>
      obtain ⟨peekKeeps, advanceKeeps⟩ := inductionHypothesis
      cases layer with
      | recording start =>
          rw [peekThrough, advanceThrough]
          exact ⟨peekKeeps, advanceKeeps⟩
      | ignoring unit =>
          have skips := skipAndAdvance_keeps unit peekKeeps advanceKeeps
          rw [peekThrough, advanceThrough]
          refine ⟨.position_bind fun mark admits => ?_, skips⟩
          refine skips.bind fun found => ?_
          exact (restore_keeps ⟨source, inner⟩ admits).map fun _ => found
      | stopped =>
          rw [peekThrough, advanceThrough]
          exact ⟨.pure none, .pure none⟩

variable (view : View)

theorem peek_keeps : Keeps view.source floor view.peek :=
  (keeps_through view.source view.layers).1

theorem advance_keeps : Keeps view.source floor view.advance :=
  (keeps_through view.source view.layers).2

theorem test_keeps (pattern : Pattern) : Keeps view.source floor (view.test pattern) :=
  .ofExcept fun _ => Pattern.benign_of_test?

theorem ignore_cases (literal : Literal) :
    (∃ unit, view.ignore literal = .ok ⟨view.source, .ignoring unit :: view.layers⟩) ∨
      ∃ fault, fault.Benign view.source.mode ∧ view.ignore literal = .error fault := by
  unfold ignore
  cases answer : view.mode.unit? literal with
  | ok unit => exact .inl ⟨unit, rfl⟩
  | error fault => exact .inr ⟨fault, Mode.benign_of_unit? answer, rfl⟩

theorem nextWith_keeps (test : Code → Bool) : Keeps view.source floor (view.nextWith test) :=
  view.peek_keeps.nextIf view.advance_keeps test

theorem countWith_keeps (test : Code → Bool) : Keeps view.source floor (view.countWith test) :=
  view.source.rounds_keeps.bind fun rounds => (view.nextWith_keeps test).countLoop rounds 0

theorem countAll_keeps : Keeps view.source floor view.countAll :=
  view.source.rounds_keeps.bind fun rounds => view.advance_keeps.countLoop rounds 0

theorem walkUntil_keeps (pattern : Pattern) : Keeps view.source floor (view.walkUntil pattern) :=
  (view.test_keeps pattern).bind fun _ => (view.countWith_keeps _).map fun _ => ()

theorem leapUntil_keeps (source : Source) (pattern : Pattern) :
    Keeps source floor (leapUntil source pattern) := by
  cases pattern with
  | satisfying test => exact walkUntil_keeps ⟨source, []⟩ (.satisfying test)
  | literal given =>
      refine .ofExcept_bind (fun _ => Mode.benign_of_unit?) fun unit _ => ?_
      refine .ofExcept_bind (fun _ => Mode.benign_of_encodeUnit) fun needle encoded => ?_
      rw [Mode.eq_unitBytes_of_encodeUnit encoded]
      exact source.seek_keeps unit

theorem consumeUntil_keeps (pattern : Pattern) :
    Keeps view.source floor (view.consumeUntil pattern) := by
  obtain ⟨source, layers⟩ := view
  show Keeps source floor (consumeUntilThrough source pattern layers)
  induction layers with
  | nil => exact leapUntil_keeps source pattern
  | cons layer inner inductionHypothesis =>
      cases layer with
      | recording start => exact inductionHypothesis
      | ignoring unit => exact walkUntil_keeps ⟨source, .ignoring unit :: inner⟩ pattern
      | stopped => exact walkUntil_keeps ⟨source, .stopped :: inner⟩ pattern

theorem consume_keeps : Keeps view.source floor view.consume := by
  obtain ⟨source, layers⟩ := view
  show Keeps source floor (consumeThrough source layers)
  induction layers with
  | nil => exact source.moveToStop_keeps
  | cons layer inner inductionHypothesis =>
      cases layer with
      | recording start => exact inductionHypothesis
      | ignoring unit => exact (countAll_keeps ⟨source, .ignoring unit :: inner⟩).map fun _ => ()
      | stopped => exact (countAll_keeps ⟨source, .stopped :: inner⟩).map fun _ => ()

/-! ## Consumers -/

theorem remaining_keeps : Keeps view.source floor view.remaining := by
  unfold remaining
  split
  · exact .pure 0
  · exact .position_bind fun _ _ => .pure _

theorem atEnd_keeps : Keeps view.source floor view.atEnd :=
  view.peek_keeps.map _

theorem peekAt_keeps (distance : Int) : Keeps view.source floor (view.peekAt distance) := by
  unfold peekAt
  split
  · exact .refuse trivial
  · exact (view.advance_keeps.lastLoop _ _).lookAhead fun _ => view.restore_keeps

theorem nextIf_keeps (pattern : Pattern) : Keeps view.source floor (view.nextIf pattern) :=
  (view.test_keeps pattern).bind fun _ => view.nextWith_keeps _

theorem advanceIf_keeps (pattern : Pattern) : Keeps view.source floor (view.advanceIf pattern) := by
  refine view.peek_keeps.bind fun found => ?_
  cases found with
  | none => exact .pure none
  | some unit => exact (view.nextIf_keeps pattern).map _

theorem countRun_keeps (pattern : Pattern) : Keeps view.source floor (view.countRun pattern) :=
  (view.test_keeps pattern).bind fun _ => view.countWith_keeps _

theorem countAtLeast_keeps (pattern : Pattern) (needed : Int) :
    Keeps view.source floor (view.countAtLeast pattern needed) := by
  refine (view.countRun_keeps pattern).bind fun count => ?_
  split
  · exact .refuse trivial
  · exact .pure count

theorem consumeWhile_keeps (pattern : Pattern) :
    Keeps view.source floor (view.consumeWhile pattern) :=
  (view.countRun_keeps pattern).map fun _ => ()

theorem consumeClass_keeps (pattern : Pattern) :
    Keeps view.source floor (view.consumeClass pattern) := by
  cases pattern with
  | literal given => exact .refuse trivial
  | satisfying test => exact view.consumeWhile_keeps _

theorem consumeLength_keeps (needed : Int) : Keeps view.source floor (view.consumeLength needed) :=
  view.advance_keeps.takeLoop needed _ 0

theorem consumeAtLeast_keeps (needed : Int) :
    Keeps view.source floor (view.consumeAtLeast needed) :=
  (view.consumeLength_keeps needed).bind fun _ => view.consume_keeps

theorem peekLength_keeps (needed : Int) : Keeps view.source floor (view.peekLength needed) := by
  refine Keeps.lookAhead ?_ fun _ => view.restore_keeps
  intro position admits
  have kept := view.consumeLength_keeps needed position admits
  dsimp only
  split
  · next taken =>
      rw [taken] at kept
      exact .ok kept.admits
  · next short =>
      rw [short] at kept
      exact .ok kept.admits
  · next refusal =>
      rw [refusal] at kept
      exact kept.refused

theorem takeUnits_keeps : Keeps view.source floor view.takeUnits :=
  view.source.rounds_keeps.bind fun rounds => view.advance_keeps.unitsLoop rounds #[]

theorem expect_keeps (pattern : Pattern) : Keeps view.source floor (view.expect pattern) := by
  refine (view.test_keeps pattern).bind fun test => ?_
  refine .position_bind fun offset _ => ?_
  refine view.peek_keeps.bind fun found => ?_
  cases found with
  | none => exact .refuse trivial
  | some unit =>
      show Keeps view.source floor (if test unit then _ else _)
      split
      · exact view.advance_keeps.map fun _ => ()
      · exact .refuse trivial

theorem expectEnd_keeps : Keeps view.source floor view.expectEnd := by
  refine view.peek_keeps.bind fun found => ?_
  cases found with
  | none => exact .pure ()
  | some unit => exact .position_bind fun _ _ => .refuse trivial

theorem describe_keeps : Keeps view.source floor view.describe :=
  .position_bind fun _ _ => .pure _

/-! ## Recordings -/

/-- Every recording of a view starts where the buffer may be cut. -/
def Anchored (view : View) : Prop :=
  ∀ start, .recording start ∈ view.layers → view.source.Boundary start

variable {view}

theorem Anchored.recordFrom (anchored : view.Anchored) {place : Nat}
    (boundary : view.source.Boundary place) : (view.recordFrom place).Anchored := by
  intro start member
  rcases List.mem_cons.mp member with isNew | isOld
  · cases isNew
    exact boundary
  · exact anchored start isOld

theorem Anchored.boundary_of_recordingStart (anchored : view.Anchored) {start : Nat}
    (found : view.recordingStart = some start) : view.source.Boundary start := by
  obtain ⟨layer, member, isStart⟩ := List.exists_of_findSome?_eq_some found
  cases layer with
  | recording first =>
      cases isStart
      exact anchored start member
  | ignoring unit => cases isStart
  | stopped => cases isStart

theorem recordedRange_of_le {start position : Nat} (found : view.recordingStart = some start)
    (reached : start ≤ position) :
    view.recordedRange position = (.ok (start, position), position) := by
  simp only [recordedRange, found, Scan.position_bind, if_neg (Nat.not_lt.mpr reached)]
  rfl

theorem recordedRange_of_lt {start position : Nat} (found : view.recordingStart = some start)
    (behind : position < start) :
    view.recordedRange position = (.error (.behindRecording position start), position) := by
  simp only [recordedRange, found, Scan.position_bind, if_pos behind]
  rfl

theorem recordedBytes_of_le {start position : Nat} (found : view.recordingStart = some start)
    (reached : start ≤ position) :
    view.recordedBytes position =
      (.ok (Utf8.slice view.source.bytes start position), position) :=
  Scan.bind_of_ok (recordedRange_of_le found reached)

theorem recordedSpan_of_le {start position : Nat} (found : view.recordingStart = some start)
    (reached : start ≤ position) :
    view.recordedSpan position = (.ok ⟨start, position⟩, position) := by
  rw [recordedSpan, Scan.bind_of_ok (recordedRange_of_le found reached)]
  simp only [Scan.ofExcept, Span.checked, if_neg (Nat.not_lt.mpr reached)]

/-- What was recorded is decoded, in either mode. -/
theorem recordedText_eq {start position : Nat} (found : view.recordingStart = some start)
    (reached : start ≤ position) :
    view.recordedText position =
      ((Utf8.decodeFrom start (Utf8.slice view.source.bytes start position)).mapError
        Utf8.Defect.fault, position) := by
  rw [recordedText, Scan.bind_of_ok (recordedRange_of_le found reached)]
  dsimp only
  cases Utf8.decodeFrom start (Utf8.slice view.source.bytes start position) with
  | ok text => rfl
  | error defect => rfl

/-- Between two positions of a text stand whole scalars, which are what was recorded. -/
theorem recordedText_of_le {start position : Nat} (isText : view.source.mode = .text)
    (startAdmits : view.source.Admits start) (admits : view.source.Admits position)
    (found : view.recordingStart = some start) (reached : start ≤ position) :
    view.recordedText position =
      (.ok ((view.source.narrowed start position).unitsFrom start), position) := by
  have narrowedAdmits := (startAdmits.wellFormed_narrowed admits reached).admits_start
  have decoded : Utf8.decodeFrom start (Utf8.slice view.source.bytes start position) =
      .ok ((view.source.narrowed start position).unitsFrom start) :=
    narrowedAdmits.decodeFrom_slice isText start
  rw [recordedText, Scan.bind_of_ok (recordedRange_of_le found reached)]
  simp only [decoded]
  rfl

theorem recordedText_of_lt {start position : Nat} (found : view.recordingStart = some start)
    (behind : position < start) :
    view.recordedText position = (.error (.behindRecording position start), position) :=
  Scan.bind_of_error (recordedRange_of_lt found behind)

/-- What was recorded is answered as text if it is UTF-8, and nothing is answered otherwise. -/
theorem recordedText?_eq {start position : Nat} (found : view.recordingStart = some start)
    (reached : start ≤ position) :
    view.recordedText? position =
      (.ok (Utf8.decode (Utf8.slice view.source.bytes start position)).toOption, position) := by
  rw [← Utf8.toOption_decodeFrom start]
  simp only [recordedText?, recordedText_eq found reached]
  cases Utf8.decodeFrom start (Utf8.slice view.source.bytes start position) with
  | ok text => rfl
  | error defect => rfl

theorem recordedText?_of_ok {position moved : Nat} {text : Text}
    (decoded : view.recordedText position = (.ok text, moved)) :
    view.recordedText? position = (.ok (some text), moved) := by
  simp only [recordedText?, decoded]

theorem recordedText?_of_lt {start position : Nat} (found : view.recordingStart = some start)
    (behind : position < start) :
    view.recordedText? position = (.error (.behindRecording position start), position) := by
  simp only [recordedText?, recordedText_of_lt found behind]

/-- What follows the recorded range keeps if it does from one boundary to a later one. -/
theorem Anchored.recordedRange_bind (anchored : view.Anchored) {β : Type}
    {next : Nat × Nat → Scan β}
    (keeps : ∀ start stop, view.source.Boundary start → view.source.Boundary stop →
      start ≤ stop → Keeps view.source floor (next (start, stop))) :
    Keeps view.source floor (view.recordedRange >>= next) := by
  intro position admits
  cases found : view.recordingStart with
  | none =>
      have refusal : view.recordedRange position = (.error .notRecording, position) := by
        simp only [recordedRange, found]
        rfl
      rw [Scan.bind_of_error refusal]
      exact .error admits trivial
  | some start =>
      rcases Nat.lt_or_ge position start with behind | reached
      · rw [Scan.bind_of_error (recordedRange_of_lt found behind)]
        exact .error admits trivial
      · rw [Scan.bind_of_ok (recordedRange_of_le found reached)]
        exact keeps start position (anchored.boundary_of_recordingStart found) admits.boundary
          reached position admits

theorem Anchored.recordedBytes_keeps (anchored : view.Anchored) :
    Keeps view.source floor view.recordedBytes :=
  anchored.recordedRange_bind fun _ _ _ _ _ => .pure _

/-- Between two boundaries of a text stand whole scalars, so that they decode. -/
theorem Anchored.recordedText_keeps (anchored : view.Anchored) :
    Keeps view.source floor view.recordedText := by
  refine anchored.recordedRange_bind fun start stop startBoundary stopBoundary ordered => ?_
  dsimp only
  split
  · exact .pure _
  · next defect failed =>
      refine .refuse ?_
      show view.source.mode = .bytes
      cases isMode : view.source.mode with
      | bytes => rfl
      | text =>
          obtain ⟨text, decoded⟩ := Utf8.decodeFrom_slice (startBoundary isMode)
            (stopBoundary isMode) ordered start
          rw [decoded] at failed
          cases failed

theorem Anchored.recordedText?_keeps (anchored : view.Anchored) :
    Keeps view.source floor view.recordedText? := by
  intro position admits
  have kept := anchored.recordedText_keeps position admits
  unfold recordedText?
  split
  · next decoded =>
      rw [decoded] at kept
      exact .ok kept.admits
  · next malformed =>
      rw [malformed] at kept
      exact .ok kept.admits
  · next refusal =>
      rw [refusal] at kept
      exact kept.refused

theorem Anchored.recordedSpan_keeps (anchored : view.Anchored) :
    Keeps view.source floor view.recordedSpan :=
  anchored.recordedRange_bind fun _ _ _ _ _ => .ofExcept fun _ => Span.benign_of_checked

theorem Anchored.restBytes_keeps (anchored : view.Anchored) :
    Keeps view.source floor view.restBytes :=
  view.consume_keeps.bind fun _ => anchored.recordedBytes_keeps

theorem Anchored.restText_keeps (anchored : view.Anchored) :
    Keeps view.source floor view.restText :=
  view.consume_keeps.bind fun _ => anchored.recordedText_keeps

theorem Anchored.restText?_keeps (anchored : view.Anchored) :
    Keeps view.source floor view.restText? :=
  view.consume_keeps.bind fun _ => anchored.recordedText?_keeps

/-- What follows a new recording keeps if it does over every recording from a boundary. -/
theorem Anchored.record_bind (anchored : view.Anchored) {β : Type} {next : View → Scan β}
    (keeps : ∀ place, (view.recordFrom place).Anchored →
      Keeps view.source floor (next (view.recordFrom place))) :
    Keeps view.source floor (view.record >>= next) :=
  fun position admits =>
    keeps position (anchored.recordFrom admits.boundary) position admits

/-! ## Segments -/

/-- A segment of a view: a part of its buffer, under its ignoring layers. -/
def part (view : View) (start stop : Nat) : View :=
  ⟨view.source.narrowed start stop, view.layers.filter isKept⟩

theorem part_anchored (view : View) (start stop : Nat) : (view.part start stop).Anchored := by
  intro place member
  cases (List.mem_filter.mp member).2

theorem bounded_cases (wellFormed : view.source.WellFormed) (first last : Int) :
    (∃ start stop, (view.part start stop).source.WellFormed ∧
      view.bounded first last = .ok (view.part start stop)) ∨
    (∃ fault, fault.Benign view.source.mode ∧ view.bounded first last = .error fault) ∨
    (∃ place : Nat, (first = place ∨ last = place) ∧ ¬ view.source.Boundary place ∧
      view.bounded first last = .error (.utf8 place .insideSequence)) := by
  unfold bounded
  rcases wellFormed.bounded_cases first last with
    ⟨start, stop, -, -, narrowed, answer⟩ | ⟨-, refusal⟩ | ⟨place, isEnd, inside, refusal⟩
  · left
    rw [answer]
    exact ⟨start, stop, narrowed, rfl⟩
  · right; left
    rw [refusal]
    exact ⟨.boundsOutside .., trivial, rfl⟩
  · right; right
    rw [refusal]
    exact ⟨place, isEnd, inside, rfl⟩

/-- The next segment is a well-formed part, or it is refused for a benign cause; the parent stands
at a position either way. -/
theorem nextSegment_cases (delimiter : Pattern) (progress : Progress)
    (admits : view.source.AdmitsFrom floor progress.position) :
    ∃ moved, view.source.AdmitsFrom floor moved.position ∧
      ((∃ start stop, (view.part start stop).source.WellFormed ∧
          view.nextSegment delimiter progress = (.ok (view.part start stop), moved)) ∨
        ∃ fault, fault.Benign view.source.mode ∧
          view.nextSegment delimiter progress = (.error fault, moved)) := by
  unfold nextSegment
  split
  · exact ⟨progress, admits, .inr ⟨.exhausted, trivial, rfl⟩⟩
  · obtain ⟨lastAdmits, consumeBenign⟩ := view.consumeUntil_keeps delimiter _ admits
    split
    · next refusal =>
        rw [refusal] at lastAdmits consumeBenign
        exact ⟨_, lastAdmits, .inr ⟨_, consumeBenign _ rfl, rfl⟩⟩
    · next last consumed =>
        rw [consumed] at lastAdmits
        obtain ⟨movedAdmits, advanceBenign⟩ := view.advance_keeps last lastAdmits
        split
        · next refusal =>
            rw [refusal] at movedAdmits advanceBenign
            exact ⟨_, movedAdmits, .inr ⟨_, advanceBenign _ rfl, rfl⟩⟩
        · next unit moved taken =>
            rw [taken] at movedAdmits
            refine ⟨⟨moved, unit.isNone⟩, movedAdmits, ?_⟩
            rcases bounded_cases admits.toWellFormed progress.position last with
              ⟨start, stop, narrowed, answer⟩ | ⟨fault, benign, refusal⟩ |
                ⟨place, isEnd, inside, -⟩
            · exact .inl ⟨start, stop, narrowed, by rw [answer]⟩
            · exact .inr ⟨fault, benign, by rw [refusal]⟩
            · -- Both ends are positions of the source, so neither is inside a scalar.
              exfalso
              rcases isEnd with isFirst | isLast
              · exact inside (Int.ofNat.inj isFirst ▸ admits.boundary)
              · exact inside (Int.ofNat.inj isLast ▸ lastAdmits.boundary)

/-- A sweep left its parent at a position of the source, at or past a floor, and ended early at
most for a benign cause. -/
structure Sweep.Kept {α : Type} (source : Source) (floor : Nat) (sweep : Sweep α) : Prop where
  admits : source.AdmitsFrom floor sweep.progress.position
  benign : ∀ fault, sweep.fault = some fault → fault.Benign source.mode

section Sweeps

variable {α : Type} (delimiter : Pattern) (visit : View → Scan α)
  (visits : ∀ start stop,
    Keeps (view.part start stop).source start (visit (view.part start stop)))

include visits

theorem sweepLoop_keeps (rounds : Nat) (results : Array α) {progress : Progress}
    (admits : view.source.AdmitsFrom floor progress.position) :
    (view.sweepLoop delimiter visit rounds results progress).Kept view.source floor := by
  induction rounds generalizing results progress with
  | zero => exact ⟨admits, nofun⟩
  | succ rounds inductionHypothesis =>
      rw [sweepLoop]
      obtain ⟨moved, movedAdmits, ⟨start, stop, wellFormed, answer⟩ | ⟨cause, benign, refusal⟩⟩ :=
        nextSegment_cases delimiter progress admits
      · rw [answer]
        have visited := visits start stop _ wellFormed.admits_start.fromSelf
        dsimp only
        split
        · next fault refusal =>
            refine ⟨movedAdmits, fun cause isCause => ?_⟩
            cases isCause
            exact visited.benign fault refusal
        · exact inductionHypothesis _ movedAdmits
      · rw [refusal]
        split
        · next isExhausted =>
            cases isExhausted
            exact ⟨movedAdmits, nofun⟩
        · next isFault =>
            cases isFault
            refine ⟨movedAdmits, fun cause isCause => ?_⟩
            cases isCause
            exact benign
        · next isSegment => cases isSegment

theorem sweep_keeps (progress : Progress)
    (admits : view.source.AdmitsFrom floor progress.position) :
    (view.sweep delimiter visit progress).Kept view.source floor :=
  sweepLoop_keeps delimiter visit visits _ _ admits

end Sweeps

end View

end RecordScan
