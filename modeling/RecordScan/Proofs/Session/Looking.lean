import RecordScan.Proofs.Session.Invariant

/-!
Contract: what looking through a handle does to a session.

Owns: scans that come back where they answer (`Scan.Returns`); the looking
operations (`Operation.Looks`); and their frame: a look touches no recorder, mark or
handle and no other cursor, it comes back whenever it answers, and it answers
whenever the cursor lies in all recordings of the handle.

Looking ahead is moving there and back, and a recording refuses the way back to a
place before its start. Where a cursor was returned to such a place by way of another
handle, a look is refused and the cursor stays where it looked.
-/

namespace RecordScan

/-! ## Scans that come back -/

namespace Scan

/-- Where the scan answers, it stands where it began. -/
def Returns {α : Type} (scan : Scan α) : Prop :=
  ∀ (position moved : Nat) (value : α), scan position = (.ok value, moved) → moved = position

namespace Returns

variable {α β : Type}

theorem pure (value : α) : Returns (Pure.pure value) := by
  rintro position moved found ⟨⟩
  rfl

theorem ofExcept (result : Except Fault α) : Returns (Scan.ofExcept result) := by
  intro position moved found answer
  exact (Prod.mk.inj answer).2.symm

theorem position : Returns Scan.position := by
  rintro position moved found ⟨⟩
  rfl

theorem bind {scan : Scan α} {next : α → Scan β} (first : scan.Returns)
    (second : ∀ value, (next value).Returns) : (scan >>= next).Returns := by
  intro position last found answer
  obtain ⟨value, moved, middle, final⟩ := exists_of_bind_eq_ok answer
  rw [second value moved last found final, first position moved value middle]

theorem map {scan : Scan α} (answer : α → β) (returns : scan.Returns) :
    (scan >>= fun value => Pure.pure (answer value)).Returns :=
  returns.bind fun value => pure (answer value)

end Returns

end Scan

theorem Source.peek_returns (source : Source) : source.peek.Returns := by
  refine Scan.Returns.position.bind fun place => ?_
  split
  · exact .pure none
  · exact (Scan.Returns.ofExcept _).bind fun found => .pure (some found.1)

namespace View

variable {view : View}

theorem eq_of_restore (wellFormed : view.source.WellFormed) {target position moved : Nat}
    (answer : view.restore target position = (.ok (), moved)) : moved = target := by
  rcases restore_cases wellFormed target position with
    ⟨place, isPlace, -, returned⟩ | ⟨fault, -, refusal⟩ | ⟨place, -, -, refusal⟩
  · rw [returned] at answer
    cases answer
    exact (Int.ofNat.inj isPlace).symm
  · rw [refusal] at answer
    cases answer
  · rw [refusal] at answer
    cases answer

theorem lookAhead_returns (wellFormed : view.source.WellFormed) {α : Type} (scan : Scan α) :
    (Scan.lookAhead view.restore scan).Returns := by
  intro position moved found answer
  simp only [Scan.lookAhead] at answer
  split at answer
  · next back =>
      rw [← (Prod.mk.inj answer).2]
      exact eq_of_restore wellFormed back
  · cases answer

theorem peek_returns (wellFormed : view.source.WellFormed) : view.peek.Returns := by
  obtain ⟨source, layers⟩ := view
  show (peekThrough source layers).Returns
  induction layers with
  | nil =>
      rw [peekThrough]
      exact source.peek_returns
  | cons layer inner inductionHypothesis =>
      cases layer with
      | recording start =>
          rw [peekThrough]
          exact inductionHypothesis wellFormed
      | ignoring unit =>
          -- The way back comes last and goes to the mark, wherever the moves before it led.
          intro position last found answer
          rw [peekThrough, Scan.position_bind] at answer
          obtain ⟨value, moved, -, wayBack⟩ := Scan.exists_of_bind_eq_ok answer
          obtain ⟨⟨⟩, back, returned, final⟩ := Scan.exists_of_bind_eq_ok wayBack
          cases final
          exact @eq_of_restore ⟨source, inner⟩ wellFormed _ _ _ returned
      | stopped =>
          rw [peekThrough]
          exact .pure none

theorem peekAt_returns (wellFormed : view.source.WellFormed) {distance : Int}
    (ahead : 1 ≤ distance) : (view.peekAt distance).Returns := by
  rw [peekAt, if_neg (by omega)]
  exact lookAhead_returns wellFormed _

/-! ## Looks that need no way back -/

theorem remaining_answers (view : View) (position : Nat) :
    ∃ left, view.remaining position = (.ok left, position) := by
  obtain ⟨source, layers⟩ := view
  rcases layers with _ | ⟨_ | _ | _, _⟩
  all_goals exact ⟨_, rfl⟩

theorem remaining_returns (view : View) : view.remaining.Returns := by
  intro position moved found answer
  obtain ⟨left, stays⟩ := view.remaining_answers position
  rw [stays] at answer
  cases answer
  rfl

/-- Without ignoring layers the next unit is read where the cursor stands. -/
theorem peek_answers {position : Nat} (admits : view.source.Admits position)
    (ignoresNone : ∀ unit, .ignoring unit ∉ view.layers) :
    ∃ found, view.peek position = (.ok found, position) := by
  obtain ⟨source, layers⟩ := view
  show ∃ found, peekThrough source layers position = (.ok found, position)
  induction layers with
  | nil =>
      rw [peekThrough]
      exact ⟨_, admits.peek_eq⟩
  | cons layer inner inductionHypothesis =>
      cases layer with
      | recording start =>
          rw [peekThrough]
          exact inductionHypothesis admits fun unit member =>
            ignoresNone unit (List.mem_cons_of_mem _ member)
      | ignoring unit => exact absurd (List.mem_cons_self ..) (ignoresNone unit)
      | stopped =>
          rw [peekThrough]
          exact ⟨none, rfl⟩

end View

/-! ## Looking operations -/

/-- The operations that only look, with the distances at which there can be a unit. -/
def Operation.Looks : Operation → Prop
  | .peek | .atEnd | .remaining | .peekLength _ => True
  | .peekAt distance => 1 ≤ distance
  | _ => False

namespace Session

variable {session : Session} {stack : Stack} {view : View} {operation : Operation} {index : Nat}

theorem exists_scan_of_looks (session : Session) (looks : operation.Looks)
    (wellFormed : view.source.WellFormed) :
    ∃ scan, session.scanOf view operation = some scan ∧ scan.Returns ∧
      ∀ position, view.Placed position →
        ∃ reply, scan position = (.ok reply, position) := by
  cases operation with
  | peek =>
      refine ⟨_, rfl, (View.peek_returns wellFormed).map _, fun position placed => ?_⟩
      rw [Scan.bind_of_ok (view.reads.peek_eq placed)]
      exact ⟨_, rfl⟩
  | atEnd =>
      refine ⟨_, rfl, ((View.peek_returns wellFormed).map _).map _, fun position placed => ?_⟩
      have looked : view.atEnd position = _ := Scan.bind_of_ok (view.reads.peek_eq placed)
      rw [Scan.bind_of_ok looked]
      exact ⟨_, rfl⟩
  | remaining =>
      refine ⟨_, rfl, view.remaining_returns.map _, fun position _ => ?_⟩
      obtain ⟨left, answer⟩ := view.remaining_answers position
      rw [Scan.bind_of_ok answer]
      exact ⟨_, rfl⟩
  | peekAt distance =>
      refine ⟨_, rfl, (View.peekAt_returns wellFormed looks).map _, fun position placed => ?_⟩
      rw [Scan.bind_of_ok (View.peekAt_eq placed looks)]
      exact ⟨_, rfl⟩
  | peekLength needed =>
      refine ⟨_, rfl, (View.lookAhead_returns wellFormed _).map _, fun position placed => ?_⟩
      obtain ⟨found, answer, -⟩ := View.peekLength_eq needed placed
      rw [Scan.bind_of_ok answer]
      exact ⟨_, rfl⟩
  | _ => exact looks.elim

theorem moveTo_position (session : Session) (stack : Stack) :
    session.moveTo stack (session.position stack) = session := by
  obtain ⟨cursors, recorders, handles, marks⟩ := session
  simp only [moveTo, position]
  congr 1
  apply Array.ext_getElem?
  intro other
  rw [Array.getElem?_modify]
  split
  · next isMoved =>
      subst isMoved
      cases cursors[stack.cursor]? with
      | none => rfl
      | some cursor => rfl
  · rfl

/-- A look whose scan answers without a move leaves the session as it was. -/
theorem step_of_answer {scan : Scan Reply} {reply : Reply}
    (isHandle : session.handles[index]? = some (.cursor stack))
    (isScan : session.scanOf (session.view stack) operation = some scan)
    (answer : scan (session.position stack) = (.ok reply, session.position stack)) :
    ∃ outcome, session.step index operation = some (session, outcome) ∧
      outcome.answer = .reply reply := by
  obtain ⟨outcome, taken, isAnswer⟩ := step_of_scanOf isHandle isScan
  rw [answer] at taken isAnswer
  rw [moveTo_position] at taken
  exact ⟨outcome, taken, isAnswer⟩

section Looks

variable {origin : Source} (sound : session.Sound origin)
  (isHandle : session.handles[index]? = some (.cursor stack))

include sound isHandle

/-- A look moves its own cursor at most, and forward, and not if it answers. -/
theorem Sound.look_frame (looks : operation.Looks) :
    ∃ moved outcome, session.step index operation = some (session.moveTo stack moved, outcome) ∧
      session.position stack ≤ moved ∧
      ∀ reply, outcome.answer = .reply reply → moved = session.position stack := by
  have hasCursor := sound.hasCursor isHandle
  have admits := sound.admits hasCursor
  obtain ⟨scan, isScan, returns, -⟩ := session.exists_scan_of_looks looks admits.toWellFormed
  obtain ⟨outcome, taken, isAnswer⟩ := step_of_scanOf isHandle isScan
  have notRestore (target : Target) : operation ≠ .restore target := by
    rintro rfl
    exact looks
  have kept := session.scanOf_keeps (sound.anchored hasCursor) notRestore isScan _ admits.fromSelf
  refine ⟨_, outcome, taken, kept.admits.floor_le, fun reply replied => ?_⟩
  rw [isAnswer] at replied
  exact returns _ _ reply (Prod.ext (eq_ok_of_answerOf replied) rfl)

/-- A look from a place in all recordings answers, and so does one that needs no way back. -/
theorem Sound.look_answers (looks : operation.Looks)
    (clear : (∀ start, .recording start ∈ (session.view stack).layers →
        start ≤ session.position stack) ∨
      operation = .remaining ∨
      (operation = .peek ∨ operation = .atEnd) ∧
        ∀ unit, .ignoring unit ∉ (session.view stack).layers) :
    ∃ reply outcome, session.step index operation = some (session, outcome) ∧
      outcome.answer = .reply reply := by
  have admits := sound.admits (sound.hasCursor isHandle)
  rcases clear with started | rfl | ⟨here, ignoresNone⟩
  · obtain ⟨scan, isScan, -, answers⟩ :=
      session.exists_scan_of_looks looks admits.toWellFormed
    obtain ⟨reply, answer⟩ := answers _ ⟨admits, started⟩
    exact ⟨reply, step_of_answer isHandle isScan answer⟩
  · obtain ⟨left, answer⟩ := (session.view stack).remaining_answers (session.position stack)
    exact ⟨.count left, step_of_answer isHandle rfl (Scan.bind_of_ok answer)⟩
  · obtain ⟨found, answer⟩ := View.peek_answers admits ignoresNone
    rcases here with rfl | rfl
    · exact ⟨_, step_of_answer isHandle rfl (Scan.bind_of_ok answer)⟩
    · have looked : (session.view stack).atEnd (session.position stack) =
          (.ok found.isNone, session.position stack) := Scan.bind_of_ok answer
      exact ⟨.truth found.isNone, step_of_answer isHandle rfl (Scan.bind_of_ok looked)⟩

end Looks

/-- **A look that answers has not moved.** Over every accepted buffer, after every run of steps
and through every handle, looking touches no recorder, mark or handle and no cursor but its own,
which it never moves back. If it answers, it leaves the session as it was. It answers from every
position that lies in all recordings of the handle, and elsewhere if it is a look at the bytes
left, or at the next unit with nothing ignored. -/
theorem looks_return_where_they_answer {mode : Mode} {input : Source.Input} {source : Source}
    (codePoints : ∀ text, input = .text text → ∀ code ∈ text, code ≤ Code.greatest)
    (accepted : Source.ofInput mode input = .ok source) (steps : List (Nat × Operation))
    (index : Nat) (stack : Stack) (operation : Operation) (looks : operation.Looks)
    (isHandle : ((start source).after steps).handles[index]? = some (.cursor stack)) :
    let session := (start source).after steps
    ∃ next outcome, session.step index operation = some (next, outcome) ∧
      next.recorders = session.recorders ∧ next.handles = session.handles ∧
      next.marks = session.marks ∧
      (∀ other, other ≠ stack.cursor → next.cursors[other]? = session.cursors[other]?) ∧
      session.position stack ≤ next.position stack ∧
      (∀ reply, outcome.answer = .reply reply → next = session) ∧
      ((∀ start, .recording start ∈ (session.view stack).layers →
          start ≤ session.position stack) ∨
        operation = .remaining ∨
        (operation = .peek ∨ operation = .atEnd) ∧
          (∀ unit, .ignoring unit ∉ (session.view stack).layers) →
        next = session ∧ ∃ reply, outcome.answer = .reply reply) := by
  intro session
  have sound : session.Sound source :=
    ((start_sound (Source.wellFormed_ofInput codePoints accepted)).after_onward steps).sound
  have hasCursor := sound.hasCursor isHandle
  obtain ⟨moved, outcome, taken, forward, returns⟩ := sound.look_frame isHandle looks
  refine ⟨session.moveTo stack moved, outcome, taken, rfl, rfl, rfl, ?_, ?_, ?_, ?_⟩
  · intro other isOther
    rw [moveTo, Array.getElem?_modify, if_neg (Ne.symm isOther)]
  · rw [position_moveTo hasCursor]
    exact forward
  · intro reply replied
    rw [returns reply replied, moveTo_position]
  · intro clear
    obtain ⟨reply, other, answered, isAnswer⟩ := sound.look_answers isHandle looks clear
    rw [taken] at answered
    obtain ⟨isSession, isOutcome⟩ := Prod.mk.inj (Option.some.inj answered)
    exact ⟨isSession, reply, isOutcome ▸ isAnswer⟩

/-- A look two bytes ahead, through a recording of the second byte on. -/
theorem looks_return_where_they_answer_ahead :
    let source : Source := .ofBytes [0x61, 0x62, 0x63]
    let session := (start source).after [(0, .advance), (0, .record)]
    ∃ outcome, session.step 1 (.peekAt 2) = some (session, outcome) ∧
      ∃ reply, outcome.answer = .reply reply := by
  intro source session
  have accepted : Source.ofInput .bytes (.bytes [0x61, 0x62, 0x63]) = .ok source := rfl
  have isHandle : session.handles[1]? = some (.cursor ⟨0, [.recorder 0]⟩) := rfl
  have started : ∀ start, .recording start ∈ (session.view ⟨0, [.recorder 0]⟩).layers →
      start ≤ session.position ⟨0, [.recorder 0]⟩ := by
    intro start member
    cases List.mem_singleton.mp member
    decide
  have ahead : (Operation.peekAt 2).Looks := by
    simp [Operation.Looks]
  obtain ⟨next, outcome, taken, -, -, -, -, -, -, answers⟩ :=
    looks_return_where_they_answer (by rintro text ⟨⟩) accepted _ 1 _ (.peekAt 2) ahead isHandle
  obtain ⟨rfl, answered⟩ := answers (.inl started)
  exact ⟨outcome, taken, answered⟩

/-- The bare handle returns the cursor to a byte before the recording. A look ahead by way of the
recorder, or at the next byte by way of a handle that ignores a unit over it, is refused on its
way back, and the cursor stays past the byte it looked at. -/
theorem look_moves_behind_recording :
    let source : Source := .ofBytes [0x61, 0x62, 0x63]
    let session := (start source).after
      [(0, .advance), (0, .record), (1, .ignore (.integer 0x7A)), (0, .restore (.position 0))]
    let stays := some (#[⟨source, 1⟩], Answer.refused (.positionBeforeRecording 0 1))
    session.cursors = #[⟨source, 0⟩] ∧
      (session.step 1 (.peekAt 1)).map (fun result => (result.1.cursors, result.2.answer)) =
        stays ∧
      (session.step 2 .peek).map (fun result => (result.1.cursors, result.2.answer)) = stays :=
  ⟨rfl, rfl, rfl⟩

end Session

end RecordScan
