import RecordScan.Proofs.Scan.Exhaustion

/-!
Contract: views that move alike do everything alike.

Owns: scans that do the same from every place of a kind and end at such a place
(`Scan.Alike`), with a rule for each way of putting scans together; views whose primitive
moves are alike (`View.MovesAlike`); from these rules, each consumer, look-ahead, recording
and grammar of two such views; and the calls for segments and sweeps of views that search
alike.

A scan that is alike to itself never leaves the places of the kind, not even when it is
refused. The search for a pattern is no consequence of the other moves, since a bare source
leaps: whatever searches takes the likeness of that search as a hypothesis.
-/

namespace RecordScan

/-! ## Likeness of scans -/

namespace Scan

/-- From every place of a kind two scans do the same, and end at a place of that kind, answered
or refused. -/
def Alike {α : Type} (placed : Nat → Prop) (first second : Scan α) : Prop :=
  ∀ position, placed position → second position = first position ∧ placed (first position).2

namespace Alike

variable {α β : Type} {placed : Nat → Prop} {first second : Scan α}

theorem of_rests {scan : Scan α} (rests : Rests placed scan) : Alike placed scan scan :=
  fun position isPlaced => ⟨rfl, rests position isPlaced⟩

theorem pure (value : α) : Alike placed (Pure.pure value) (Pure.pure value) :=
  of_rests (.pure value)

theorem refuse (fault : Fault) : Alike placed (Scan.refuse fault : Scan α) (Scan.refuse fault) :=
  of_rests (.refuse fault)

theorem ofExcept (result : Except Fault α) :
    Alike placed (Scan.ofExcept result) (Scan.ofExcept result) :=
  of_rests (.ofExcept result)

theorem bind {next other : α → Scan β} (leading : Alike placed first second)
    (following : ∀ value, Alike placed (next value) (other value)) :
    Alike placed (first >>= next) (second >>= other) := by
  intro position isPlaced
  obtain ⟨same, lands⟩ := leading position isPlaced
  cases answer : first position with
  | mk result moved =>
      rw [answer] at same lands
      cases result with
      | error fault =>
          rw [bind_of_error answer, bind_of_error same]
          exact ⟨rfl, lands⟩
      | ok value =>
          rw [bind_of_ok answer, bind_of_ok same]
          exact following value moved lands

theorem map (answer : α → β) (alike : Alike placed first second) :
    Alike placed (first >>= fun value => Pure.pure (answer value))
      (second >>= fun value => Pure.pure (answer value)) :=
  alike.bind fun value => pure (answer value)

/-- What follows may count on the place that is asked for. -/
theorem position_bind {next other : Nat → Scan β}
    (following : ∀ mark, placed mark → Alike placed (next mark) (other mark)) :
    Alike placed (Scan.position >>= next) (Scan.position >>= other) :=
  fun position isPlaced => following position isPlaced position isPlaced

theorem lookAhead {restore other : Int → Scan Unit} (alike : Alike placed first second)
    (back : ∀ target : Nat, placed target → Alike placed (restore target) (other target)) :
    Alike placed (Scan.lookAhead restore first) (Scan.lookAhead other second) := by
  intro position isPlaced
  obtain ⟨same, lands⟩ := alike position isPlaced
  obtain ⟨sameBack, landsBack⟩ := back position isPlaced _ lands
  simp only [Scan.lookAhead, same, sameBack]
  cases answer : restore position (first position).2 with
  | mk result returned =>
      rw [answer] at landsBack
      cases result with
      | ok _ => exact ⟨trivial, landsBack⟩
      | error fault => exact ⟨trivial, landsBack⟩

section Loops

variable {step stepSecond : Scan (Option Code)} (alike : Alike placed step stepSecond)

include alike

theorem countLoop (rounds count : Nat) :
    Alike placed (Scan.countLoop step rounds count) (Scan.countLoop stepSecond rounds count) := by
  induction rounds generalizing count with
  | zero => exact pure count
  | succ rounds inductionHypothesis =>
      apply alike.bind
      intro found
      cases found with
      | none => exact pure count
      | some unit => exact inductionHypothesis (count + 1)

theorem takeLoop (needed : Int) (rounds taken : Nat) :
    Alike placed (Scan.takeLoop step needed rounds taken)
      (Scan.takeLoop stepSecond needed rounds taken) := by
  induction rounds generalizing taken with
  | zero => exact pure ()
  | succ rounds inductionHypothesis =>
      apply alike.bind
      intro found
      cases found with
      | none => exact refuse _
      | some unit => exact inductionHypothesis (taken + 1)

theorem lastLoop (rounds : Nat) (last : Option Code) :
    Alike placed (Scan.lastLoop step rounds last) (Scan.lastLoop stepSecond rounds last) := by
  induction rounds generalizing last with
  | zero => exact pure last
  | succ rounds inductionHypothesis =>
      apply alike.bind
      intro found
      cases found with
      | none => exact pure none
      | some unit => exact inductionHypothesis (some unit)

theorem unitsLoop (rounds : Nat) (units : Array Code) :
    Alike placed (Scan.unitsLoop step rounds units)
      (Scan.unitsLoop stepSecond rounds units) := by
  induction rounds generalizing units with
  | zero => exact pure units.toList
  | succ rounds inductionHypothesis =>
      apply alike.bind
      intro found
      cases found with
      | none => exact pure units.toList
      | some unit => exact inductionHypothesis (units.push unit)

end Loops

theorem nextIf {peek peekSecond advance advanceSecond : Scan (Option Code)}
    (looks : Alike placed peek peekSecond) (takes : Alike placed advance advanceSecond)
    (test : Code → Bool) :
    Alike placed (Scan.nextIf peek advance test) (Scan.nextIf peekSecond advanceSecond test) := by
  apply looks.bind
  intro found
  cases found with
  | none => exact pure none
  | some unit =>
      dsimp only
      split
      · exact takes
      · exact pure none

end Alike

end Scan

namespace View

open Scan (Alike)

variable {placed : Nat → Prop} {first second : View}

/-! ## Recordings -/

/-- Two views of one source that record from the same place, or both record nothing. -/
structure RecordsAlike (first second : View) : Prop where
  source : second.source = first.source
  recordingStart : second.recordingStart = first.recordingStart

theorem RecordsAlike.ofRecordFrom (source : second.source = first.source) (mark : Nat) :
    RecordsAlike (first.recordFrom mark) (second.recordFrom mark) :=
  ⟨source, rfl⟩

namespace RecordsAlike

variable (alike : RecordsAlike first second)

include alike

theorem recordedBytes_eq : second.recordedBytes = first.recordedBytes := by
  simp only [View.recordedBytes, recordedRange, alike.source, alike.recordingStart]

theorem recordedText_eq : second.recordedText = first.recordedText := by
  simp only [View.recordedText, recordedRange, alike.source, alike.recordingStart]

theorem recordedSpan_eq : second.recordedSpan = first.recordedSpan := by
  simp only [View.recordedSpan, recordedRange, alike.recordingStart]

theorem recordedBytes : Alike placed first.recordedBytes second.recordedBytes := by
  rw [alike.recordedBytes_eq]
  exact .of_rests (recordedRange_rests.bind fun _ => .pure _)

theorem recordedText : Alike placed first.recordedText second.recordedText := by
  rw [alike.recordedText_eq]
  exact .of_rests recordedText_rests

theorem recordedSpan : Alike placed first.recordedSpan second.recordedSpan := by
  rw [alike.recordedSpan_eq]
  exact .of_rests (recordedRange_rests.bind fun _ => .ofExcept _)

theorem recordedText? : Alike placed first.recordedText? second.recordedText? := by
  intro position isPlaced
  obtain ⟨-, lands⟩ := alike.recordedText position isPlaced
  unfold View.recordedText?
  rw [alike.recordedText_eq]
  refine ⟨rfl, ?_⟩
  split
  · next answer => rwa [answer] at lands
  · next answer => rwa [answer] at lands
  · next answer => rwa [answer] at lands

theorem recordedInteger : Alike placed first.recordedInteger second.recordedInteger := by
  simp only [View.recordedInteger, alike.recordedText_eq]
  exact .of_rests recordedInteger_rests

theorem recordedReal : Alike placed first.recordedReal second.recordedReal := by
  simp only [View.recordedReal, alike.recordedText_eq]
  exact .of_rests recordedReal_rests

variable (consumes : Alike placed first.consume second.consume)

include consumes

theorem restBytes : Alike placed first.restBytes second.restBytes :=
  consumes.bind fun _ => alike.recordedBytes

theorem restText : Alike placed first.restText second.restText :=
  consumes.bind fun _ => alike.recordedText

theorem restText? : Alike placed first.restText? second.restText? :=
  consumes.bind fun _ => alike.recordedText?

end RecordsAlike

/-- What follows a new recording may count on its start. -/
theorem record_alike {β : Type} {next other : View → Scan β}
    (following : ∀ mark, placed mark →
      Alike placed (next (first.recordFrom mark)) (other (second.recordFrom mark))) :
    Alike placed (first.record >>= next) (second.record >>= other) :=
  fun position isPlaced => following position isPlaced position isPlaced

/-- A line is searched for its colon, which is then taken, and the rest of it is recorded. -/
theorem keyValue_alike (source : second.source = first.source)
    (advances : Alike placed first.advance second.advance)
    (consumes : Alike placed first.consume second.consume)
    (searches : Alike placed (first.consumeUntil (character ':'))
      (second.consumeUntil (character ':'))) :
    Alike placed first.keyValue second.keyValue := by
  have recorded (mark : Nat) := RecordsAlike.ofRecordFrom source mark
  unfold keyValue
  rw [source]
  apply (Alike.ofExcept _).bind
  intro span
  apply record_alike
  intro keyMark _
  apply searches.bind
  intro _
  apply (recorded keyMark).recordedText.bind
  intro key
  apply advances.bind
  intro colon
  cases colon with
  | none => exact .pure _
  | some unit =>
      apply record_alike
      intro valueMark _
      exact ((recorded valueMark).restText consumes).map _

/-! ## Likeness of views -/

/-- Two views of one source whose moves are alike. -/
structure MovesAlike (placed : Nat → Prop) (first second : View) : Prop
    extends RecordsAlike first second where
  remaining : second.remaining = first.remaining
  peek : Alike placed first.peek second.peek
  advance : Alike placed first.advance second.advance
  restore : ∀ target : Nat, placed target →
    Alike placed (first.restore target) (second.restore target)
  consume : Alike placed first.consume second.consume

namespace MovesAlike

variable (alike : MovesAlike placed first second)

include alike

theorem mode_eq : second.mode = first.mode :=
  congrArg Source.mode alike.source

theorem test (pattern : Pattern) : Alike placed (first.test pattern) (second.test pattern) := by
  rw [View.test, View.test, alike.mode_eq]
  exact .ofExcept _

theorem rounds : Alike placed first.source.rounds second.source.rounds := by
  rw [alike.source]
  exact .position_bind fun _ _ => .pure _

/-! ### Runs -/

theorem nextWith (test : Code → Bool) :
    Alike placed (first.nextWith test) (second.nextWith test) :=
  alike.peek.nextIf alike.advance test

theorem nextIf (pattern : Pattern) :
    Alike placed (first.nextIf pattern) (second.nextIf pattern) :=
  (alike.test pattern).bind alike.nextWith

theorem countWith (test : Code → Bool) :
    Alike placed (first.countWith test) (second.countWith test) :=
  alike.rounds.bind fun rounds => (alike.nextWith test).countLoop rounds 0

theorem countAll : Alike placed first.countAll second.countAll :=
  alike.rounds.bind fun rounds => alike.advance.countLoop rounds 0

theorem countRun (pattern : Pattern) :
    Alike placed (first.countRun pattern) (second.countRun pattern) :=
  (alike.test pattern).bind alike.countWith

theorem countAtLeast (pattern : Pattern) (needed : Int) :
    Alike placed (first.countAtLeast pattern needed) (second.countAtLeast pattern needed) := by
  apply (alike.countRun pattern).bind
  intro count
  split
  · exact .refuse _
  · exact .pure count

theorem consumeWhile (pattern : Pattern) :
    Alike placed (first.consumeWhile pattern) (second.consumeWhile pattern) :=
  (alike.countRun pattern).map fun _ => ()

theorem consumeClass (pattern : Pattern) :
    Alike placed (first.consumeClass pattern) (second.consumeClass pattern) := by
  cases pattern with
  | literal given => exact .refuse _
  | satisfying test => exact alike.consumeWhile (.satisfying test)

theorem walkUntil (pattern : Pattern) :
    Alike placed (first.walkUntil pattern) (second.walkUntil pattern) :=
  (alike.test pattern).bind fun test => (alike.countWith fun unit => !test unit).map fun _ => ()

theorem takeUnits : Alike placed first.takeUnits second.takeUnits :=
  alike.rounds.bind fun rounds => alike.advance.unitsLoop rounds #[]

/-! ### Counted moves -/

theorem consumeLength (needed : Int) :
    Alike placed (first.consumeLength needed) (second.consumeLength needed) :=
  alike.advance.takeLoop needed needed.toNat 0

theorem consumeAtLeast (needed : Int) :
    Alike placed (first.consumeAtLeast needed) (second.consumeAtLeast needed) :=
  (alike.consumeLength needed).bind fun _ => alike.consume

/-! ### Looking and expecting -/

theorem atEnd : Alike placed first.atEnd second.atEnd :=
  alike.peek.map Option.isNone

theorem advanceIf (pattern : Pattern) :
    Alike placed (first.advanceIf pattern) (second.advanceIf pattern) := by
  apply alike.peek.bind
  intro found
  cases found with
  | none => exact .pure none
  | some unit => exact (alike.nextIf pattern).map _

theorem peekAt (distance : Int) :
    Alike placed (first.peekAt distance) (second.peekAt distance) := by
  unfold View.peekAt
  split
  · exact .refuse _
  · exact (alike.advance.lastLoop _ none).lookAhead alike.restore

theorem peekLength (needed : Int) :
    Alike placed (first.peekLength needed) (second.peekLength needed) := by
  apply Alike.lookAhead _ alike.restore
  intro position isPlaced
  obtain ⟨same, lands⟩ := alike.consumeLength needed position isPlaced
  simp only [same, alike.source, true_and]
  split
  · next answer => rwa [answer] at lands
  · next answer => rwa [answer] at lands
  · next answer => rwa [answer] at lands

theorem expect (pattern : Pattern) :
    Alike placed (first.expect pattern) (second.expect pattern) := by
  unfold View.expect
  rw [alike.mode_eq]
  apply (alike.test pattern).bind
  intro test
  apply Alike.position_bind
  intro offset _
  apply alike.peek.bind
  intro found
  cases found with
  | none => exact .refuse _
  | some unit =>
      dsimp only
      split
      · exact alike.advance.map fun _ => ()
      · exact .refuse _

theorem expectEnd : Alike placed first.expectEnd second.expectEnd := by
  unfold View.expectEnd
  rw [alike.mode_eq]
  apply alike.peek.bind
  intro found
  cases found with
  | none => exact .pure ()
  | some unit => exact .position_bind fun _ _ => .refuse _

/-! ### Numbers -/

theorem number : Alike placed first.number second.number := by
  have recorded (mark : Nat) := RecordsAlike.ofRecordFrom alike.source mark
  simp only [View.number, nextIf_recordFrom, countRun_recordFrom, consumeWhile_recordFrom]
  apply Alike.position_bind
  intro mark isMark
  apply (alike.nextIf _).bind
  intro sign
  apply (alike.countRun _).bind
  intro count
  split
  · exact (alike.restore mark isMark).map fun _ => none
  · apply (alike.nextIf _).bind
    intro point
    cases point with
    | none =>
        apply (recorded mark).recordedInteger.bind
        intro value
        exact (Alike.ofExcept _).map some
    | some unit =>
        apply (alike.consumeWhile _).bind
        intro _
        apply (recorded mark).recordedReal.bind
        intro value
        exact (Alike.ofExcept _).map some

theorem wholeNumber : Alike placed first.wholeNumber second.wholeNumber := by
  apply Alike.position_bind
  intro start _
  apply alike.number.bind
  intro found
  cases found with
  | none => exact .refuse _
  | some number => exact alike.expectEnd.map fun _ => number

end MovesAlike

/-! ## Segments -/

/-- The part of a source that a segment has, under those of other layers that a segment keeps. -/
def relaid (layers : List Layer) (segment : View) : View :=
  ⟨segment.source, layers.filter isKept⟩

theorem bounded_relaid (source : second.source = first.source) (start stop : Int) :
    second.bounded start stop = (first.bounded start stop).map (relaid second.layers) := by
  rw [bounded, bounded, source]
  cases first.source.bounded start stop with
  | ok narrowed => rfl
  | error fault => rfl

section Segments

variable {delimiter : Pattern} {progress : Progress} (source : second.source = first.source)
  (advances : Alike placed first.advance second.advance)
  (searches : Alike placed (first.consumeUntil delimiter) (second.consumeUntil delimiter))

include source advances searches

/-- A call for a segment hands out the same part of the source, and moves alike. -/
theorem nextSegment_alike (isPlaced : placed progress.position) :
    second.nextSegment delimiter progress =
        ((first.nextSegment delimiter progress).1.map (relaid second.layers),
          (first.nextSegment delimiter progress).2) ∧
      placed (first.nextSegment delimiter progress).2.position := by
  unfold nextSegment
  split
  · exact ⟨rfl, isPlaced⟩
  · obtain ⟨sameSearch, searchLands⟩ := searches _ isPlaced
    rw [sameSearch]
    cases consumed : first.consumeUntil delimiter progress.position with
    | mk answer last =>
        rw [consumed] at searchLands
        cases answer with
        | error fault => exact ⟨rfl, searchLands⟩
        | ok _ =>
            obtain ⟨sameStep, stepLands⟩ := advances last searchLands
            dsimp only
            rw [sameStep]
            cases taken : first.advance last with
            | mk found moved =>
                rw [taken] at stepLands
                cases found with
                | error fault => exact ⟨rfl, stepLands⟩
                | ok unit =>
                    dsimp only
                    rw [bounded_relaid source]
                    exact ⟨rfl, stepLands⟩

variable {α : Type} {visit : View → Scan α}
  (visits : ∀ {progress moved segment}, placed progress.position →
    first.nextSegment delimiter progress = (.ok segment, moved) →
    (visit (relaid second.layers segment) segment.source.start).1 =
      (visit segment segment.source.start).1)

include visits

/-- A sweep whose function finds the same on both segments of each pair finds the same. -/
theorem sweepLoop_alike (rounds : Nat) (results : Array α) (isPlaced : placed progress.position) :
    second.sweepLoop delimiter visit rounds results progress =
        first.sweepLoop delimiter visit rounds results progress ∧
      placed (first.sweepLoop delimiter visit rounds results progress).progress.position := by
  induction rounds generalizing results progress with
  | zero => exact ⟨rfl, isPlaced⟩
  | succ rounds inductionHypothesis =>
      obtain ⟨same, lands⟩ := nextSegment_alike source advances searches isPlaced
      rw [sweepLoop, sweepLoop, same]
      cases given : first.nextSegment delimiter progress with
      | mk answer moved =>
          rw [given] at lands
          cases answer with
          | error fault =>
              cases fault with
              | exhausted => exact ⟨rfl, lands⟩
              | _ => exact ⟨rfl, lands⟩
          | ok segment =>
              have sameVisit : (visit (relaid second.layers segment)
                  (relaid second.layers segment).source.start).1 =
                  (visit segment segment.source.start).1 := visits isPlaced given
              dsimp only [Except.map]
              rw [sameVisit]
              cases (visit segment segment.source.start).1 with
              | error fault => exact ⟨rfl, lands⟩
              | ok result => exact inductionHypothesis (results.push result) lands

theorem sweep_alike (isPlaced : placed progress.position) :
    second.sweep delimiter visit progress = first.sweep delimiter visit progress ∧
      placed (first.sweep delimiter visit progress).progress.position := by
  rw [sweep, sweep, source]
  exact sweepLoop_alike source advances searches visits _ _ isPlaced

end Segments

/-- Lines are read by a sweep, if their delimiter can be read. -/
theorem keyValues_alike {delimiter : Pattern} (source : second.source = first.source)
    (sweeps : ∀ position, placed position →
      second.sweep delimiter keyValue ⟨position, false⟩ =
          first.sweep delimiter keyValue ⟨position, false⟩ ∧
        placed (first.sweep delimiter keyValue ⟨position, false⟩).progress.position) :
    Alike placed (first.keyValues delimiter) (second.keyValues delimiter) := by
  intro position isPlaced
  obtain ⟨same, lands⟩ := sweeps position isPlaced
  have sameMode : second.mode = first.mode := congrArg Source.mode source
  simp only [keyValues, sameMode]
  split
  · exact ⟨rfl, isPlaced⟩
  · rw [same]
    refine ⟨rfl, ?_⟩
    split
    · exact lands
    · exact lands

end View

end RecordScan
