import RecordScan.Proofs.Scan.Exhaustion

/-!
Contract: when a scan is refused, and what its refusal says.

Owns: the scans that are refused for given causes and then stay where they were
(`Scan.RefusedFor`); the causes for which a view refuses an offset, a literal, a search
or an expectation, with the operations that are refused for them; and where the unit
stands that a failed expectation names.

A failed expectation names the first unit that shows and the position of the cursor. Where
a layer ignores units the two need not belong together: the unit stands behind the ignored
ones, and the position is before them.
-/

namespace RecordScan

/-! ## Where units stand -/

theorem Source.Admits.unitAt_of_cons {source : Source} {position : Nat}
    (admits : source.Admits position) {unit : Code} {rest : List Code}
    (ahead : source.unitsFrom position = unit :: rest) :
    source.UnitAt position unit ∧
      source.unitsFrom (position + source.mode.unitWidth unit) = rest := by
  have notEnd : position ≠ source.stop := by
    intro atEnd
    cases (admits.unitsFrom_eq_nil_iff.mpr atEnd).symm.trans ahead
  obtain ⟨found, stands⟩ := admits.exists_unitAt (Nat.lt_of_le_of_ne admits.le_stop notEnd)
  obtain ⟨rfl, isRest⟩ := List.cons.inj (stands.unitsFrom_eq.symm.trans ahead)
  exact ⟨stands, isRest⟩

/-- Each of the units ahead stands where the bytes of those before it end. -/
theorem Source.Admits.unitAt_of_append {source : Source} {position : Nat}
    (admits : source.Admits position) {before rest : List Code} {unit : Code}
    (ahead : source.unitsFrom position = before ++ unit :: rest) :
    source.UnitAt (position + (before.flatMap source.mode.unitBytes).length) unit := by
  induction before generalizing position with
  | nil => exact (admits.unitAt_of_cons ahead).1
  | cons first before inductionHypothesis =>
      obtain ⟨stands, isRest⟩ := admits.unitAt_of_cons ahead
      rw [List.flatMap_cons, List.length_append, ← Nat.add_assoc]
      exact inductionHypothesis stands.admits_next isRest

/-! ## Refusals that stay in place -/

/-- From a position, a scan is refused only for one of these causes and without a move, and it
is refused if there is such a cause. -/
structure Scan.RefusedFor {α : Type} (scan : Scan α) (position : Nat) (cause : Fault → Prop) :
    Prop where
  stays : ∀ {fault moved}, scan position = (.error fault, moved) → cause fault ∧ moved = position
  refused : ∀ {fault}, cause fault → ∃ other moved, scan position = (.error other, moved)

namespace Scan.RefusedFor

variable {α β : Type} {scan : Scan α} {position : Nat} {cause : Fault → Prop}

theorem of_ok {value : α} {moved : Nat} (answer : scan position = (.ok value, moved))
    (noCause : ∀ fault, ¬ cause fault) : scan.RefusedFor position cause := by
  constructor
  · intro fault last refusal
    cases answer.symm.trans refusal
  · intro fault isCause
    exact absurd isCause (noCause fault)

theorem of_error {fault : Fault} (refusal : scan position = (.error fault, position))
    (isCause : cause fault) : scan.RefusedFor position cause := by
  constructor
  · intro other moved again
    cases refusal.symm.trans again
    exact ⟨isCause, rfl⟩
  · intro other _
    exact ⟨fault, position, refusal⟩

theorem congr {other : Fault → Prop} (refusedFor : scan.RefusedFor position cause)
    (same : ∀ fault, cause fault ↔ other fault) : scan.RefusedFor position other := by
  have isOther : cause = other := funext fun fault => propext (same fault)
  exact isOther ▸ refusedFor

theorem of_eq {other : Scan α} (same : other position = scan position)
    (refusedFor : scan.RefusedFor position cause) : other.RefusedFor position cause := by
  constructor
  · intro fault moved refusal
    exact refusedFor.stays (same.symm.trans refusal)
  · intro fault isCause
    rw [same]
    exact refusedFor.refused isCause

/-- A value that is checked first, and used by a scan that answers. -/
theorem ofExcept_bind {result : Except Fault α} {next : α → Scan β}
    (answers : ∀ value, result = .ok value →
      ∃ found moved, next value position = (.ok found, moved)) :
    (Scan.ofExcept result >>= next).RefusedFor position (result = .error ·) := by
  cases isResult : result with
  | ok value =>
      obtain ⟨found, moved, answer⟩ := answers value isResult
      exact of_ok answer nofun
  | error fault => exact of_error rfl rfl

theorem ofExcept (result : Except Fault α) :
    (Scan.ofExcept result).RefusedFor position (result = .error ·) := by
  cases result with
  | ok value => exact of_ok rfl nofun
  | error fault => exact of_error rfl rfl

theorem map (answer : α → β) (refusedFor : scan.RefusedFor position cause) :
    (scan >>= fun value => pure (answer value)).RefusedFor position cause := by
  cases result : scan position with
  | mk outcome moved =>
      cases outcome with
      | ok value =>
          refine of_ok (Scan.bind_of_ok result) fun fault isCause => ?_
          obtain ⟨other, last, refusal⟩ := refusedFor.refused isCause
          cases result.symm.trans refusal
      | error fault =>
          obtain ⟨isCause, rfl⟩ := refusedFor.stays result
          exact of_error (Scan.bind_of_error result) isCause

end Scan.RefusedFor

/-! ## Causes -/

theorem Mode.encodeUnit_eq_error_iff {mode : Mode} {unit : Code} {fault : Fault} :
    mode.encodeUnit unit = .error fault ↔
      mode = .text ∧ unit.isSurrogate = true ∧ fault = .unencodable unit := by
  cases mode with
  | bytes => simp [Mode.encodeUnit]
  | text =>
      by_cases surrogate : unit.isSurrogate = true <;>
        simp [Mode.encodeUnit, surrogate, eq_comm]

theorem Literal.character?_le_greatest {literal : Literal} {unit : Code}
    (codePoints : ∀ text, literal = .text text → ∀ code ∈ text, code ≤ Code.greatest)
    (coerced : literal.character? = .ok unit) : unit ≤ Code.greatest := by
  simp only [Literal.character?] at coerced
  split at coerced
  · next code =>
      cases coerced
      exact codePoints [unit] rfl unit (List.mem_singleton_self unit)
  · next value =>
      split at coerced
      · cases coerced
      · split at coerced
        · next inRange =>
            cases coerced
            show value.toNat ≤ Code.greatest
            omega
        · cases coerced
  · next encoded =>
      split at coerced
      · next code decoded =>
          cases coerced
          have scalars := (Utf8.decode_eq_ok_iff.mp decoded).1
          exact (scalars unit (List.mem_singleton_self unit)).1
      · cases coerced
  · cases coerced

/-- A literal stands for a scalar, or in a text for half a surrogate pair. -/
theorem Mode.isScalar_or_surrogate {mode : Mode} {literal : Literal} {unit : Code}
    (codePoints : ∀ text, literal = .text text → ∀ code ∈ text, code ≤ Code.greatest)
    (coerced : mode.unit? literal = .ok unit) :
    unit.IsScalar ∨ mode = .text ∧ unit.isSurrogate = true := by
  cases mode with
  | bytes =>
      have isScalar (byte : Nat) (small : byte < 0x100) : Code.IsScalar byte :=
        (Code.isScalar_iff byte).mpr ⟨by omega, by omega⟩
      exact .inl (isScalar unit (Literal.lt_of_byte? coerced))
  | text =>
      have small : unit ≤ Code.greatest := Literal.character?_le_greatest codePoints coerced
      cases surrogate : unit.isSurrogate with
      | false => exact .inl ⟨small, surrogate⟩
      | true => exact .inr ⟨rfl, rfl⟩

/-- A literal that stands for no unit is no failed expectation. -/
theorem Pattern.test?_ne_unexpected {pattern : Pattern} {mode other : Mode}
    {found : Option Code} {offset : Nat} :
    pattern.test? mode ≠ .error (.unexpected other found offset) := by
  intro refused
  cases pattern with
  | satisfying test => cases refused
  | literal given =>
      cases mode with
      | bytes =>
          simp only [Pattern.test?, Mode.unit?, Literal.byte?] at refused
          repeat' split at refused
          all_goals cases refused
      | text =>
          simp only [Pattern.test?, Mode.unit?, Literal.character?] at refused
          repeat' split at refused
          all_goals cases refused

/-- Why other bounds are refused. -/
inductive Source.RefusesBounds (source : Source) (first last : Int) : Fault → Prop
  | outside (notWithin : ¬ ((source.start : Int) ≤ first ∧ first ≤ last ∧ last ≤ source.stop)) :
      RefusesBounds source first last (.boundsOutside first last source.start source.stop)
  | inside {place : Nat} (isEnd : first = place ∨ last = place)
      (notBoundary : ¬ source.Boundary place) :
      RefusesBounds source first last (.utf8 place .insideSequence)

namespace View

variable {source : Source} {view : View} {position : Nat}

/-! ## Offsets -/

/-- Why a return to an offset is refused, at whatever depth of the layers. -/
inductive RefusesReturn (view : View) (offset : Int) : Fault → Prop
  | before {start : Nat} (isLayer : .recording start ∈ view.layers) (early : offset < start) :
      RefusesReturn view offset (.positionBeforeRecording offset start)
  | outside (notWithin : ¬ ((view.source.start : Int) ≤ offset ∧ offset ≤ view.source.stop)) :
      RefusesReturn view offset (.positionOutside offset view.source.start view.source.stop)
  | inside {place : Nat} (isPlace : offset = place) (notBoundary : ¬ view.source.Boundary place) :
      RefusesReturn view offset (.utf8 offset .insideSequence)

/-- A layer that lets an offset pass leaves it to the layers beneath. -/
theorem refusesReturn_cons_iff {layer : Layer} {inner : List Layer} {offset : Int} {fault : Fault}
    (passes : ∀ start : Nat, layer = .recording start → start ≤ offset) :
    RefusesReturn ⟨source, inner⟩ offset fault ↔
      RefusesReturn ⟨source, layer :: inner⟩ offset fault := by
  constructor
  · intro refuses
    cases refuses with
    | before isLayer early => exact .before (List.mem_cons_of_mem layer isLayer) early
    | outside notWithin => exact .outside notWithin
    | inside isPlace notBoundary => exact .inside isPlace notBoundary
  · intro refuses
    cases refuses with
    | before isLayer early =>
        rcases List.mem_cons.mp isLayer with isFirst | isInner
        · exact absurd (passes _ isFirst.symm) (Int.not_le.mpr early)
        · exact .before isInner early
    | outside notWithin => exact .outside notWithin
    | inside isPlace notBoundary => exact .inside isPlace notBoundary

theorem restore_refusedFor (wellFormed : view.source.WellFormed) (offset : Int) :
    (view.restore offset).RefusedFor position (view.RefusesReturn offset) := by
  obtain ⟨source, layers⟩ := view
  induction layers with
  | nil =>
      rcases wellFormed.restore_cases offset position with
        ⟨place, rfl, admits, answer⟩ | ⟨notWithin, refusal⟩ |
          ⟨place, isPlace, notBoundary, refusal⟩
      · refine .of_ok answer fun fault refuses => ?_
        cases refuses with
        | before isLayer => cases isLayer
        | outside notWithin =>
            exact notWithin ⟨Int.ofNat_le.mpr admits.start_le, Int.ofNat_le.mpr admits.le_stop⟩
        | inside isPlace notBoundary =>
            exact notBoundary (Int.ofNat.inj isPlace ▸ admits.boundary)
      · exact .of_error refusal (.outside notWithin)
      · exact .of_error refusal (.inside isPlace notBoundary)
  | cons layer inner inductionHypothesis =>
      cases layer with
      | recording start =>
          by_cases early : offset < start
          · refine .of_error ?_ (.before (List.mem_cons_self ..) early)
            rw [restore, restoreThrough, if_pos early, Scan.refuse_apply]
          · have passes : restore ⟨source, .recording start :: inner⟩ offset =
                restore ⟨source, inner⟩ offset := if_neg early
            rw [passes]
            refine (inductionHypothesis wellFormed).congr fun fault => refusesReturn_cons_iff ?_
            rintro other ⟨rfl⟩
            exact Int.not_lt.mp early
      | ignoring unit =>
          refine (inductionHypothesis wellFormed).congr fun fault => refusesReturn_cons_iff ?_
          rintro start ⟨⟩
      | stopped =>
          refine (inductionHypothesis wellFormed).congr fun fault => refusesReturn_cons_iff ?_
          rintro start ⟨⟩

theorem bounded_refusedFor (wellFormed : view.source.WellFormed) (first last : Int) :
    (Scan.ofExcept (view.bounded first last)).RefusedFor position
      (view.source.RefusesBounds first last) := by
  rw [bounded]
  rcases wellFormed.bounded_cases first last with
    ⟨start, stop, rfl, rfl, partFormed, answer⟩ | ⟨notWithin, refusal⟩ |
      ⟨place, isEnd, notBoundary, refusal⟩
  · rw [answer]
    refine .of_ok rfl fun fault refuses => ?_
    cases refuses with
    | outside notWithin =>
        have refusal : view.source.bounded start stop = .error _ := if_neg notWithin
        cases answer.symm.trans refusal
    | inside isEnd notBoundary =>
        rcases isEnd with isStart | isStop
        · exact notBoundary (Int.ofNat.inj isStart ▸ partFormed.start_boundary)
        · exact notBoundary (Int.ofNat.inj isStop ▸ partFormed.stop_boundary)
  · rw [refusal]
    exact .of_error rfl (.outside notWithin)
  · rw [refusal]
    exact .of_error rfl (.inside isEnd notBoundary)

/-! ## Literals -/

section Literals

variable (pattern : Pattern) (placed : view.Placed position)

include placed

theorem nextIf_refusedFor :
    (view.nextIf pattern).RefusedFor position (pattern.test? view.mode = .error ·) := by
  apply Scan.RefusedFor.ofExcept_bind
  intro test _
  obtain ⟨moved, answer, -⟩ := view.reads.nextIf_leaves test placed
  exact ⟨_, moved, answer⟩

theorem countRun_refusedFor :
    (view.countRun pattern).RefusedFor position (pattern.test? view.mode = .error ·) := by
  apply Scan.RefusedFor.ofExcept_bind
  intro test _
  obtain ⟨moved, answer, -⟩ := countWith_leaves test placed
  exact ⟨_, moved, answer⟩

theorem walkUntil_refusedFor :
    (view.walkUntil pattern).RefusedFor position (pattern.test? view.mode = .error ·) := by
  apply Scan.RefusedFor.ofExcept_bind
  intro test _
  obtain ⟨moved, answer, -⟩ := countWith_leaves (fun unit => !test unit) placed
  exact ⟨(), moved, Scan.bind_of_ok answer⟩

theorem consumeWhile_refusedFor :
    (view.consumeWhile pattern).RefusedFor position (pattern.test? view.mode = .error ·) :=
  (countRun_refusedFor pattern placed).map fun _ => ()

/-- At the end of a view a literal is not even looked at. -/
theorem advanceIf_refusedFor :
    (view.advanceIf pattern).RefusedFor position fun fault =>
      view.visible position ≠ [] ∧ pattern.test? view.mode = .error fault := by
  have looked := view.reads.peek_eq placed
  cases isVisible : view.visible position with
  | nil =>
      rw [isVisible] at looked
      exact .of_ok (Scan.bind_of_ok looked) fun fault isCause => isCause.1 rfl
  | cons unit rest =>
      rw [isVisible] at looked
      have onward : view.advanceIf pattern position =
          (view.nextIf pattern >>= fun taken => pure (some taken.isSome)) position :=
        Scan.bind_of_ok looked
      refine .of_eq onward (((nextIf_refusedFor pattern placed).map _).congr fun fault => ?_)
      simp

theorem consumeClass_refusedFor :
    (view.consumeClass pattern).RefusedFor position fun fault =>
      ∃ literal, pattern = .literal literal ∧ fault = .predicateWanted literal := by
  cases pattern with
  | literal literal => exact .of_error rfl ⟨literal, rfl, rfl⟩
  | satisfying test =>
      refine (consumeWhile_refusedFor (.satisfying test) placed).congr fun fault => ?_
      simp [Pattern.test?]

end Literals

/-- Why a search is refused: for its literal, or in a leap for half a surrogate pair, which has
no bytes. -/
inductive RefusesSearch (view : View) (pattern : Pattern) : Fault → Prop
  | literal {fault : Fault} (unread : pattern.test? view.mode = .error fault) :
      RefusesSearch view pattern fault
  | surrogate {literal : Literal} {unit : Code} (leaps : view.OnlyRecords)
      (isText : view.mode = .text) (isLiteral : pattern = .literal literal)
      (coerced : view.mode.unit? literal = .ok unit) (surrogate : unit.isSurrogate = true) :
      RefusesSearch view pattern (.unencodable unit)

theorem RefusesSearch.of_layers {pattern : Pattern} {fault : Fault} {layers others : List Layer}
    (refuses : RefusesSearch ⟨source, layers⟩ pattern fault)
    (leap : OnlyRecords ⟨source, layers⟩ → OnlyRecords ⟨source, others⟩) :
    RefusesSearch ⟨source, others⟩ pattern fault := by
  cases refuses with
  | literal unread => exact .literal unread
  | surrogate leaps isText isLiteral coerced surrogate =>
      exact .surrogate (leap leaps) isText isLiteral coerced surrogate

/-- A view that walks refuses literals only. -/
theorem walks_refusesSearch_iff {pattern : Pattern} {fault : Fault} {layer : Layer}
    {inner : List Layer} (notRecording : ∀ start, layer ≠ .recording start) :
    pattern.test? source.mode = .error fault ↔
      RefusesSearch ⟨source, layer :: inner⟩ pattern fault := by
  constructor
  · intro unread
    exact .literal unread
  · intro refuses
    cases refuses with
    | literal unread => exact unread
    | surrogate leaps =>
        obtain ⟨start, isRecording⟩ := leaps layer (List.mem_cons_self ..)
        exact absurd isRecording (notRecording start)

theorem leapUntil_refusedFor (pattern : Pattern) (placed : Placed ⟨source, []⟩ position) :
    (leapUntil source pattern).RefusedFor position (RefusesSearch ⟨source, []⟩ pattern) := by
  cases pattern with
  | satisfying test =>
      refine (walkUntil_refusedFor (.satisfying test) placed).congr fun fault => ?_
      refine ⟨.literal, fun refuses => ?_⟩
      cases refuses with
      | literal unread => exact unread
      | surrogate _ _ isLiteral => cases isLiteral
  | literal literal =>
      have matched : (Pattern.literal literal).test? source.mode =
          (source.mode.unit? literal).map fun unit code => code == unit := rfl
      cases coerced : source.mode.unit? literal with
      | error fault =>
          rw [coerced] at matched
          refine .of_error ?_ (.literal matched)
          rw [leapUntil, Scan.ofExcept_bind_of_error coerced]
      | ok unit =>
          cases encoded : source.mode.encodeUnit unit with
          | error fault =>
              obtain ⟨isText, surrogate, rfl⟩ := Mode.encodeUnit_eq_error_iff.mp encoded
              have leaps : OnlyRecords ⟨source, []⟩ := by
                rintro layer ⟨⟩
              refine .of_error ?_ (.surrogate leaps isText rfl coerced surrogate)
              rw [leapUntil, Scan.ofExcept_bind_of_ok coerced,
                Scan.ofExcept_bind_of_error encoded]
          | ok needle =>
              have leapt : leapUntil source (.literal literal) position =
                  source.seek needle position := by
                rw [leapUntil, Scan.ofExcept_bind_of_ok coerced,
                  Scan.ofExcept_bind_of_ok encoded]
              refine .of_ok leapt fun fault refuses => ?_
              cases refuses with
              | literal unread => cases (coerced ▸ matched).symm.trans unread
              | surrogate _ isText isLiteral again surrogate =>
                  cases isLiteral
                  cases coerced.symm.trans again
                  have refused := Mode.encodeUnit_eq_error_iff.mpr ⟨isText, surrogate, rfl⟩
                  cases encoded.symm.trans refused

theorem consumeUntil_refusedFor (pattern : Pattern) (placed : view.Placed position) :
    (view.consumeUntil pattern).RefusedFor position (view.RefusesSearch pattern) := by
  obtain ⟨source, layers⟩ := view
  induction layers with
  | nil => exact leapUntil_refusedFor pattern placed
  | cons layer inner inductionHypothesis =>
      cases layer with
      | recording start =>
          have same : OnlyRecords ⟨source, inner⟩ ↔
              OnlyRecords ⟨source, .recording start :: inner⟩ := by
            simp [OnlyRecords]
          exact (inductionHypothesis placed.inner).congr fun fault =>
            ⟨fun refuses => refuses.of_layers same.mp, fun refuses => refuses.of_layers same.mpr⟩
      | ignoring unit =>
          refine (walkUntil_refusedFor pattern placed).congr fun fault =>
            walks_refusesSearch_iff ?_
          rintro start ⟨⟩
      | stopped =>
          refine (walkUntil_refusedFor pattern placed).congr fun fault =>
            walks_refusesSearch_iff ?_
          rintro start ⟨⟩

/-- What no stopped layer hides is looked for, or is half a surrogate pair that has no bytes. -/
theorem finds_or_refuses {pattern : Pattern} (unstopped : .stopped ∉ view.layers)
    (codePoints : ∀ text, pattern = .literal (.text text) → ∀ code ∈ text, code ≤ Code.greatest) :
    view.Finds pattern ∨ ∃ unit, view.RefusesSearch pattern (.unencodable unit) := by
  by_cases ignores : ∃ unit, .ignoring unit ∈ view.layers
  · exact .inl (.inl ignores)
  have onlyRecords : view.OnlyRecords := by
    intro layer member
    cases layer with
    | recording start => exact ⟨start, rfl⟩
    | ignoring unit => exact absurd ⟨unit, member⟩ ignores
    | stopped => exact absurd member unstopped
  by_cases searchable : pattern.Searchable view.mode
  · exact .inl (.inr searchable)
  · right
    simp only [Pattern.Searchable, not_forall] at searchable
    obtain ⟨literal, unit, isLiteral, coerced, notScalar⟩ := searchable
    have fromText (text : Text) (isText : literal = .text text) :=
      codePoints text (isText ▸ isLiteral)
    obtain ⟨isText, surrogate⟩ :=
      (Mode.isScalar_or_surrogate fromText coerced).resolve_left notScalar
    exact ⟨unit, .surrogate onlyRecords isText isLiteral coerced surrogate⟩

/-! ## Expectations -/

/-- Why an expectation is refused: for its literal, or if the first unit that shows does not
match. -/
inductive RefusesExpectation (view : View) (pattern : Pattern) (position : Nat) : Fault → Prop
  | literal {fault : Fault} (unread : pattern.test? view.mode = .error fault) :
      RefusesExpectation view pattern position fault
  | unmatched {test : Code → Bool} {found : Option Code}
      (matched : pattern.test? view.mode = .ok test)
      (isFirst : (view.visible position).head? = found)
      (differs : ∀ unit ∈ found, test unit = false) :
      RefusesExpectation view pattern position (.unexpected view.mode found position)

theorem expect_refusedFor (pattern : Pattern) (placed : view.Placed position) :
    (view.expect pattern).RefusedFor position (view.RefusesExpectation pattern position) := by
  have looked := view.reads.peek_eq placed
  have taken := view.reads.advance_leaves placed
  cases matched : pattern.test? view.mode with
  | error fault =>
      refine .of_error ?_ (.literal matched)
      exact Scan.ofExcept_bind_of_error matched _ position
  | ok test =>
      cases isFirst : (view.visible position).head? with
      | none =>
          rw [isFirst] at looked
          refine .of_error ?_ (.unmatched matched isFirst nofun)
          rw [expect, test_bind matched, Scan.position_bind, Scan.bind_of_ok looked]
          rfl
      | some unit =>
          rw [isFirst] at looked taken
          cases passes : test unit with
          | true =>
              obtain ⟨moved, answer, -⟩ := taken
              have expected : view.expect pattern position = (.ok (), moved) := by
                rw [expect, test_bind matched, Scan.position_bind, Scan.bind_of_ok looked]
                dsimp only
                rw [if_pos passes]
                exact Scan.bind_of_ok answer
              refine .of_ok expected fun fault refuses => ?_
              cases refuses with
              | literal unread => cases matched.symm.trans unread
              | unmatched again sameFirst differs =>
                  cases matched.symm.trans again
                  cases isFirst.symm.trans sameFirst
                  cases passes.symm.trans (differs unit rfl)
          | false =>
              refine .of_error ?_ (.unmatched matched isFirst ?_)
              · rw [expect, test_bind matched, Scan.position_bind, Scan.bind_of_ok looked]
                simp [passes]
              · rintro other ⟨rfl⟩
                exact passes

theorem expectEnd_refusedFor (placed : view.Placed position) :
    view.expectEnd.RefusedFor position fun fault =>
      ∃ unit, (view.visible position).head? = some unit ∧
        fault = .unexpected view.mode (some unit) position := by
  have looked := view.reads.peek_eq placed
  cases isVisible : view.visible position with
  | nil =>
      rw [isVisible] at looked
      refine .of_ok (Scan.bind_of_ok looked) ?_
      simp
  | cons unit rest =>
      rw [isVisible] at looked
      exact .of_error (Scan.bind_of_ok looked) ⟨unit, rfl, rfl⟩

/-! ## What a failed expectation finds -/

/-- The first unit that shows stands behind a run of ignored ones. -/
theorem exists_skipped {unit : Code}
    (isFirst : (view.visible position).head? = some unit) :
    ∃ skipped rest, view.source.unitsFrom position = skipped ++ unit :: rest ∧
      (∀ other ∈ skipped, .ignoring other ∈ view.layers) ∧ .ignoring unit ∉ view.layers := by
  obtain ⟨later, isVisible⟩ := List.head?_eq_some_iff.mp isFirst
  have unstopped : .stopped ∉ view.layers := by
    intro stopped
    rw [visible, visibleThrough_of_stopped stopped] at isVisible
    cases isVisible
  rw [visible, visibleThrough_eq_filter unstopped, List.filter_eq_cons_iff] at isVisible
  obtain ⟨skipped, rest, ahead, ignored, shows, -⟩ := isVisible
  exact ⟨skipped, rest, ahead, by simpa using ignored, by simpa using shows⟩

/-- The first unit that shows stands at the position exactly if nothing is skipped before it. -/
theorem unitAt_iff_skips_nothing {skipped rest : List Code} {unit : Code}
    (admits : view.source.Admits position)
    (ahead : view.source.unitsFrom position = skipped ++ unit :: rest)
    (ignored : ∀ other ∈ skipped, .ignoring other ∈ view.layers)
    (shows : .ignoring unit ∉ view.layers) :
    (∃ width, view.source.unitAt position = .ok (unit, width)) ↔ skipped = [] := by
  constructor
  · rintro ⟨width, isUnit⟩
    cases skipped with
    | nil => rfl
    | cons first skipped =>
        -- What stands here is ignored, and the unit is not.
        have stands := (admits.unitAt_of_cons ahead).1
        cases stands.unitAt_eq.symm.trans isUnit
        exact absurd (ignored unit (List.mem_cons_self ..)) shows
  · rintro rfl
    exact ⟨_, (admits.unitAt_of_cons ahead).1.unitAt_eq⟩

/-- **A failed expectation names the first unit that shows, and the position of the cursor.** From
every position that lies in all recordings of a view, over any stack of layers, an expectation that
fails on a unit does not move, gives the position as the offset, and names a unit of the buffer that
no layer ignores. Between the offset and that unit stand ignored units only, so the unit stands at
the offset exactly if none of these is there. -/
theorem unexpected_unit_stands_ahead (view : View) (position : Nat) (placed : view.Placed position)
    (scan : Scan Unit) (expects : scan = view.expectEnd ∨ ∃ pattern, scan = view.expect pattern)
    (mode : Mode) (unit : Code) (offset moved : Nat)
    (refused : scan position = (.error (.unexpected mode (some unit) offset), moved)) :
    mode = view.mode ∧ offset = position ∧ moved = position ∧
    ∃ skipped rest, view.source.unitsFrom offset = skipped ++ unit :: rest ∧
      (∀ other ∈ skipped, .ignoring other ∈ view.layers) ∧ .ignoring unit ∉ view.layers ∧
      view.source.UnitAt (offset + (skipped.flatMap view.mode.unitBytes).length) unit ∧
      ((∃ width, view.source.unitAt offset = .ok (unit, width)) ↔ skipped = []) := by
  obtain ⟨isMode, isOffset, isMoved, isFirst⟩ : mode = view.mode ∧ offset = position ∧
      moved = position ∧ (view.visible position).head? = some unit := by
    rcases expects with rfl | ⟨pattern, rfl⟩
    · obtain ⟨⟨found, isFirst, isFault⟩, isMoved⟩ := (expectEnd_refusedFor placed).stays refused
      cases isFault
      exact ⟨rfl, rfl, isMoved, isFirst⟩
    · obtain ⟨refuses, isMoved⟩ := (expect_refusedFor pattern placed).stays refused
      cases refuses with
      | literal unread => exact absurd unread Pattern.test?_ne_unexpected
      | unmatched _ isFirst => exact ⟨rfl, rfl, isMoved, isFirst⟩
  subst isMode isOffset isMoved
  obtain ⟨skipped, rest, ahead, ignored, shows⟩ := exists_skipped isFirst
  exact ⟨rfl, rfl, rfl, skipped, rest, ahead, ignored, shows,
    placed.1.unitAt_of_append ahead, unitAt_iff_skips_nothing placed.1 ahead ignored shows⟩

/-- The end is expected before a blank that is ignored and a scalar of two bytes. -/
theorem unexpected_unit_stands_ahead_of_blank :
    let view : View := ⟨⟨.text, #[0x20, 0xC3, 0xA9], 0, 3⟩, [.ignoring 0x20, .recording 0]⟩
    view.Placed 0 ∧ view.expectEnd 0 = (.error (.unexpected .text (some 0xE9) 0), 0) ∧
      ∃ skipped : List Code, skipped ≠ [] ∧
        view.source.UnitAt (0 + (skipped.flatMap view.mode.unitBytes).length) 0xE9 := by
  intro view
  have accepted : Source.ofInput .text (.text [0x20, 0xE9]) = .ok view.source := rfl
  have placed : view.Placed 0 :=
    ⟨(Source.wellFormed_ofInput (by rintro text ⟨rfl⟩; decide) accepted).admits_start,
      fun start member => by simp_all [view]⟩
  have refused : view.expectEnd 0 = (.error (.unexpected .text (some 0xE9) 0), 0) := by
    decide +kernel
  have blank : view.source.unitAt 0 = .ok (0x20, 1) := by decide +kernel
  obtain ⟨-, -, -, skipped, -, -, -, -, stands, atOffset⟩ :=
    unexpected_unit_stands_ahead view 0 placed view.expectEnd (.inl rfl) .text 0xE9 0 0 refused
  refine ⟨placed, refused, skipped, fun nothing => ?_, stands⟩
  obtain ⟨width, isUnit⟩ := atOffset.mpr nothing
  cases blank.symm.trans isUnit

/-- Before a blank that is ignored and a letter, an expectation that fails on the letter gives the
offset of the blank. -/
theorem unexpected_unit_behind_offset :
    let view : View := ⟨.ofBytes [0x20, 0x61], [.ignoring 0x20]⟩
    view.expect (.literal (.integer 0x62)) 0 =
        (.error (.unexpected .bytes (some 0x61) 0), 0) ∧
      view.expectEnd 0 = (.error (.unexpected .bytes (some 0x61) 0), 0) ∧
      view.source.unitAt 0 = .ok (0x20, 1) ∧ view.source.unitAt 1 = .ok (0x61, 1) := by
  refine ⟨?_, ?_, ?_, ?_⟩ <;> rfl

end View

end RecordScan
