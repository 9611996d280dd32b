import RecordScan.Proofs.Session.Invariant

/-!
Contract: what the recorders of a session hold.

Owns: what one change does to the handles, recorders and positions of a session; the
tie of a recorder to the one cursor that all handles with it move (`Session.TiedTo`),
after every run; recorders that their cursor has reached (`Session.Holds`), along
every run whose returns go by way of the recorder (`Session.ReturnsThrough`); that
such a recorder holds exactly the bytes from its start to the position; and that a
recorder over a text holds a text wherever its cursor has reached it.

A recorder bounds only the returns that go through it. Other handles over the same
cursor can take it back to before the start, which is why a tie does not say that the
cursor has reached the recorder.
-/

namespace RecordScan.Session

variable {origin : Source} {session next : Session} {handle : Handle} {operation : Operation}
  {stack : Stack} {index recorder : Nat}

/-! ## What a change does -/

private theorem getElem?_push_cases {α : Type} {items : Array α} {item found : α} {place : Nat}
    (there : (items.push item)[place]? = some found) :
    items[place]? = some found ∨ place = items.size ∧ found = item := by
  rw [Array.getElem?_push] at there
  split at there
  · next isLast => exact .inr ⟨isLast, (Option.some.inj there).symm⟩
  · exact .inl there

private theorem getElem?_push_of_some {α : Type} {items : Array α} {found : α} {place : Nat}
    (there : items[place]? = some found) (item : α) :
    (items.push item)[place]? = some found := by
  obtain ⟨inside, -⟩ := Array.getElem?_eq_some_iff.mp there
  rw [Array.getElem?_push, if_neg (Nat.ne_of_lt inside), there]

/-- A handle of the next session was there, derives from the one operated on, has no recorder, or
is a new recorder. -/
theorem Change.handle_cases (change : Change handle operation session next) {new : Handle}
    (found : next.handles[index]? = some new) :
    (∃ old, session.handles[index]? = some old ∧ old.stack = new.stack ∧
      ∀ stack, new = .cursor stack → old = .cursor stack) ∨
    Derives handle new ∨
    (∀ recorder, .recorder recorder ∉ new.stack.layers) ∨
    next = (session.addRecorder handle.stack).1 ∧
      new = .cursor ⟨handle.stack.cursor,
        .recorder session.recorders.size :: handle.stack.layers⟩ := by
  have kept (isOld : session.handles[index]? = some new) :
      ∃ old, session.handles[index]? = some old ∧ old.stack = new.stack ∧
        ∀ stack, new = .cursor stack → old = .cursor stack :=
    ⟨new, isOld, rfl, fun _ isCursor => isCursor⟩
  cases change with
  | move => exact .inl (kept found)
  | mark => exact .inl (kept found)
  | rebase => exact .inl (kept found)
  | handle derives =>
      rcases getElem?_push_cases found with isOld | ⟨-, rfl⟩
      · exact .inl (kept isOld)
      · exact .inr (.inl derives)
  | recorder =>
      rcases getElem?_push_cases found with isOld | ⟨-, rfl⟩
      · exact .inl (kept isOld)
      · exact .inr (.inr (.inr ⟨rfl, rfl⟩))
  | segment =>
      rcases getElem?_push_cases found with isOld | ⟨-, rfl⟩
      · exact .inl (kept isOld)
      · refine .inr (.inr (.inl fun recorder member => ?_))
        obtain ⟨layer, -, isLayer⟩ := List.mem_filterMap.mp member
        cases layer <;> cases isLayer
  | exhaust =>
      rw [setExhausted, Array.getElem?_modify] at found
      split at found
      · obtain ⟨old, isOld, isNew⟩ := Option.map_eq_some_iff.mp found
        refine .inl ⟨old, isOld, ?_⟩
        cases old with
        | cursor stack => cases isNew; exact ⟨rfl, fun _ isCursor => isCursor⟩
        | splitter parent delimiter before => cases isNew; exact ⟨rfl, by rintro stack ⟨⟩⟩
        | run stack pattern => cases isNew; exact ⟨rfl, by rintro stack ⟨⟩⟩
      · exact .inl (kept found)

theorem Change.cursor_kept (change : Change handle operation session next)
    (found : session.handles[index]? = some (.cursor stack)) :
    next.handles[index]? = some (.cursor stack) := by
  cases change with
  | move => exact found
  | mark => exact found
  | rebase => exact found
  | handle => exact getElem?_push_of_some found _
  | recorder => exact getElem?_push_of_some found _
  | segment => exact getElem?_push_of_some found _
  | exhaust =>
      rw [setExhausted, Array.getElem?_modify, found]
      split
      · rfl
      · rfl

/-- The start of a recorder stays, or it is rebased by way of its own handle. -/
theorem Change.recorder_cases (change : Change handle operation session next) {place : Nat}
    (found : session.recorders[recorder]? = some place) :
    next.recorders[recorder]? = some place ∨
    operation = .rebase ∧ next = session.rebase handle.stack recorder ∧
      ∃ cursor inner, handle = .cursor ⟨cursor, .recorder recorder :: inner⟩ := by
  cases change with
  | move => exact .inl found
  | mark => exact .inl found
  | handle => exact .inl found
  | segment => exact .inl found
  | exhaust => exact .inl found
  | recorder => exact .inl (getElem?_push_of_some found _)
  | @rebase stack other inner isRebase isHandle outermost =>
      by_cases same : other = recorder
      · subst same
        refine .inr ⟨isRebase, rfl, stack.cursor, inner, ?_⟩
        rw [isHandle, ← outermost]
      · rw [Session.rebase, Array.getElem?_modify, if_neg same]
        exact .inl found

theorem layer_recorder {place : Nat} (found : session.recorders[recorder]? = some place) :
    session.layer (.recorder recorder) = .recording place := by
  rw [layer, Array.getD_eq_getD_getElem?, found, Option.getD_some]

theorem getElem?_rebase {place : Nat} (found : session.recorders[recorder]? = some place) :
    (session.rebase stack recorder).recorders[recorder]? = some (session.position stack) := by
  rw [rebase, Array.getElem?_modify, if_pos rfl, found, Option.map_some]

theorem position_congr {first second : Stack} (same : first.cursor = second.cursor) :
    session.position first = session.position second := by
  simp only [position, same]

theorem source_congr {first second : Stack} (same : first.cursor = second.cursor) :
    session.source first = session.source second := by
  simp only [Session.source, same]

/-- A cursor does not go back, unless it is returned to a place in all recordings of the handle. -/
theorem Change.position_cases (change : Change handle operation session next)
    (hasCursor : stack.cursor < session.cursors.size) :
    session.position stack ≤ next.position stack ∨
    stack.cursor = handle.stack.cursor ∧ handle = .cursor handle.stack ∧
      (∃ target, operation = .restore target) ∧
      (session.view handle.stack).Placed (next.position stack) := by
  cases change with
  | mark => exact .inl (Nat.le_refl _)
  | handle => exact .inl (Nat.le_refl _)
  | recorder => exact .inl (Nat.le_refl _)
  | rebase => exact .inl (Nat.le_refl _)
  | exhaust => exact .inl (Nat.le_refl _)
  | segment =>
      refine .inl (Nat.le_of_eq ?_)
      have found := Array.getElem?_eq_getElem hasCursor
      simp only [position, addSegment, addHandle, getElem?_push_of_some found, found]
  | @move place admits course =>
      by_cases same : stack.cursor = handle.stack.cursor
      · have moved : (session.moveTo handle.stack place).position stack = place := by
          rw [position_congr same]
          exact position_moveTo (same ▸ hasCursor) place
        rw [moved, position_congr same]
        exact course.imp_right fun returned => ⟨same, returned⟩
      · have stays : (session.moveTo handle.stack place).position stack =
            session.position stack := by
          simp only [position, moveTo, Array.getElem?_modify, if_neg (Ne.symm same)]
        exact .inl (Nat.le_of_eq stays.symm)

/-! ## Ties -/

/-- A recorder starts at a position of one cursor, and every handle with it moves that cursor. -/
structure TiedTo (session : Session) (recorder : Nat) (stack : Stack) : Prop where
  hasCursor : stack.cursor < session.cursors.size
  admitted : ∃ place, session.recorders[recorder]? = some place ∧
    (session.source stack).Admits place
  owned : ∀ handle ∈ session.handles, .recorder recorder ∈ handle.stack.layers →
    handle.stack.cursor = stack.cursor

/-- Every recorder of a handle is tied to the cursor of the handle. -/
def Tied (session : Session) : Prop :=
  ∀ handle ∈ session.handles, ∀ recorder, .recorder recorder ∈ handle.stack.layers →
    session.TiedTo recorder handle.stack

theorem TiedTo.congr {first second : Stack} (tied : session.TiedTo recorder first)
    (same : first.cursor = second.cursor) : session.TiedTo recorder second := by
  obtain ⟨hasCursor, admitted, owned⟩ := tied
  rw [source_congr same] at admitted
  exact ⟨same ▸ hasCursor, admitted, same ▸ owned⟩

theorem TiedTo.lt_size (tied : session.TiedTo recorder stack) :
    recorder < session.recorders.size := by
  obtain ⟨place, found, -⟩ := tied.admitted
  exact (Array.getElem?_eq_some_iff.mp found).1

/-- A new recorder is tied to the cursor it records. -/
theorem Tied.addRecorder (tied : session.Tied) (sound : session.Sound origin)
    (hasCursor : stack.cursor < session.cursors.size) :
    (session.addRecorder stack).1.TiedTo session.recorders.size stack := by
  refine ⟨hasCursor, ⟨session.position stack, ?_, sound.admits hasCursor⟩, ?_⟩
  · simp [Session.addRecorder, addHandle]
  · intro new member inLayers
    rcases Array.mem_push.mp member with isOld | rfl
    · exact absurd (tied new isOld _ inLayers).lt_size (Nat.lt_irrefl _)
    · rfl

section Ties

variable (sound : session.Sound origin) (hasCursor : handle.stack.cursor < session.cursors.size)
  (change : Change handle operation session next)

include sound hasCursor change

theorem TiedTo.keep (tied : session.TiedTo recorder stack)
    (fits : .recorder recorder ∈ handle.stack.layers → handle.stack.cursor = stack.cursor) :
    next.TiedTo recorder stack := by
  have onward := change.onward sound hasCursor
  refine ⟨onward.hasCursor tied.hasCursor, ?_, ?_⟩
  · obtain ⟨place, found, admits⟩ := tied.admitted
    rcases change.recorder_cases found with stays | ⟨-, rfl, cursor, inner, rfl⟩
    · rw [onward.sources.source_eq tied.hasCursor]
      exact ⟨place, stays, admits⟩
    · have same := fits (List.mem_cons_self ..)
      refine ⟨session.position stack, ?_, sound.admits tied.hasCursor⟩
      rw [← position_congr same]
      exact getElem?_rebase found
  · intro new member inLayers
    obtain ⟨index, isNew⟩ := Array.mem_iff_getElem?.mp member
    rcases change.handle_cases isNew with
      ⟨old, isOld, sameStack, -⟩ | derives | recordsNone | ⟨-, rfl⟩
    · rw [← sameStack] at inLayers ⊢
      exact tied.owned old (Array.mem_of_getElem? isOld) inLayers
    · rw [derives.sameCursor]
      exact fits (derives.recorders recorder inLayers)
    · exact absurd inLayers (recordsNone recorder)
    · rcases List.mem_cons.mp inLayers with isFresh | isInner
      · cases isFresh
        exact absurd tied.lt_size (Nat.lt_irrefl _)
      · exact fits isInner

theorem Tied.keep (tied : session.Tied)
    (ties : ∀ recorder, .recorder recorder ∈ handle.stack.layers →
      session.TiedTo recorder handle.stack) :
    next.Tied := by
  intro new member recorder inLayers
  have tiesAfter (other : Nat) (isInner : .recorder other ∈ handle.stack.layers) :
      next.TiedTo other handle.stack :=
    (ties other isInner).keep sound hasCursor change fun _ => rfl
  obtain ⟨index, isNew⟩ := Array.mem_iff_getElem?.mp member
  rcases change.handle_cases isNew with
    ⟨old, isOld, sameStack, -⟩ | derives | recordsNone | ⟨rfl, rfl⟩
  · have oldMember := Array.mem_of_getElem? isOld
    rw [← sameStack] at inLayers ⊢
    exact (tied old oldMember recorder inLayers).keep sound hasCursor change fun isInner =>
      ((ties recorder isInner).owned old oldMember inLayers).symm
  · exact (tiesAfter recorder (derives.recorders recorder inLayers)).congr
      derives.sameCursor.symm
  · exact absurd inLayers (recordsNone recorder)
  · rcases List.mem_cons.mp inLayers with isFresh | isInner
    · cases isFresh
      exact (tied.addRecorder sound hasCursor).congr rfl
    · exact (tiesAfter recorder isInner).congr rfl

end Ties

theorem start_tied (source : Source) : (start source).Tied := by
  intro handle member recorder inLayers
  obtain rfl := Array.mem_singleton.mp member
  cases inLayers

theorem Tied.step (tied : session.Tied) (sound : session.Sound origin)
    {result : Session × Outcome} (taken : session.step index operation = some result) :
    result.1.Tied := by
  obtain ⟨handle, isHandle, hasCursor, effect⟩ := sound.step_effect taken
  -- The recorders of the handle stay tied along with all others.
  let kept (middle : Session) : Prop :=
    middle.Tied ∧ ∀ recorder, .recorder recorder ∈ handle.stack.layers →
      middle.TiedTo recorder handle.stack
  have initially : kept session := ⟨tied, tied handle (Array.mem_of_getElem? isHandle)⟩
  refine (effect.changes.preserve sound hasCursor ?_ initially).2.1
  rintro middle last middleSound stillCursor change ⟨tiedBefore, ties⟩
  exact ⟨tiedBefore.keep middleSound stillCursor change ties, fun recorder inLayers =>
    (ties recorder inLayers).keep middleSound stillCursor change fun _ => rfl⟩

theorem Tied.after (tied : session.Tied) (sound : session.Sound origin)
    (steps : List (Nat × Operation)) : (session.after steps).Tied := by
  induction steps generalizing session with
  | nil => exact tied
  | cons step steps inductionHypothesis =>
      obtain ⟨index, operation⟩ := step
      rw [Session.after]
      cases taken : session.step index operation with
      | none => exact inductionHypothesis tied sound
      | some result =>
          exact inductionHypothesis (tied.step sound taken) (sound.step_proceeds taken).onward.sound

/-! ## Recorders that are reached -/

/-- Along a run, each return of a cursor goes by way of a recorder. -/
def ReturnsThrough (session : Session) (recorder cursor : Nat) : List (Nat × Operation) → Prop
  | [] => True
  | (index, operation) :: steps =>
      (∀ target stack, operation = .restore target →
        session.handles[index]? = some (.cursor stack) → stack.cursor = cursor →
        .recorder recorder ∈ stack.layers) ∧
      (session.after [(index, operation)]).ReturnsThrough recorder cursor steps

/-- The recorder at a handle: no other handle has it as outermost layer, and its cursor has reached
its start. -/
structure Holds (session : Session) (own recorder : Nat) (stack : Stack) : Prop where
  tied : session.TiedTo recorder stack
  isHandle : session.handles[own]? = some (.cursor stack)
  alone : ∀ index cursor inner,
    session.handles[index]? = some (.cursor ⟨cursor, .recorder recorder :: inner⟩) → index = own
  reached : ∃ place, session.recorders[recorder]? = some place ∧ place ≤ session.position stack

namespace Holds

variable {own : Nat}

theorem keep (holds : session.Holds own recorder stack) (sound : session.Sound origin)
    (hasCursor : handle.stack.cursor < session.cursors.size)
    (fits : .recorder recorder ∈ handle.stack.layers → handle.stack.cursor = stack.cursor)
    (loyal : ∀ target, operation = .restore target → handle = .cursor handle.stack →
      handle.stack.cursor = stack.cursor → .recorder recorder ∈ handle.stack.layers)
    (change : Change handle operation session next) : next.Holds own recorder stack := by
  refine ⟨holds.tied.keep sound hasCursor change fits, change.cursor_kept holds.isHandle, ?_, ?_⟩
  · intro index cursor inner found
    rcases change.handle_cases found with
      ⟨old, isOld, -, wasCursor⟩ | derives | recordsNone | ⟨-, isFresh⟩
    · rw [wasCursor _ rfl] at isOld
      exact holds.alone index cursor inner isOld
    · exact absurd rfl (derives.notOutermost cursor recorder inner)
    · exact absurd (List.mem_cons_self ..) (recordsNone recorder)
    · cases isFresh
      exact absurd holds.tied.lt_size (Nat.lt_irrefl _)
  · obtain ⟨place, found, started⟩ := holds.reached
    rcases change.recorder_cases found with stays | ⟨-, rfl, cursor, inner, rfl⟩
    · refine ⟨place, stays, ?_⟩
      rcases change.position_cases holds.tied.hasCursor with
        onward | ⟨same, isCursor, ⟨target, isRestore⟩, placed⟩
      · exact Nat.le_trans started onward
      · -- The return went through the recorder, which refuses all places before its start.
        have inLayers := loyal target isRestore isCursor same.symm
        apply placed.2 place
        exact List.mem_map.mpr ⟨.recorder recorder, inLayers, layer_recorder found⟩
    · have same := fits (List.mem_cons_self ..)
      refine ⟨session.position stack, ?_, Nat.le_refl _⟩
      rw [← position_congr same]
      exact getElem?_rebase found

/-- A new recorder is held at its handle. -/
theorem ofRecord (tied : session.Tied) (sound : session.Sound origin)
    (hasCursor : stack.cursor < session.cursors.size) :
    (session.addRecorder stack).1.Holds session.handles.size session.recorders.size
      ⟨stack.cursor, .recorder session.recorders.size :: stack.layers⟩ := by
  refine ⟨(tied.addRecorder sound hasCursor).congr rfl, ?_, ?_, ?_⟩
  · simp [addRecorder, addHandle]
  · intro index cursor inner found
    rcases getElem?_push_cases found with isOld | ⟨isLast, -⟩
    · have tiedOld := tied _ (Array.mem_of_getElem? isOld) _ (List.mem_cons_self ..)
      exact absurd tiedOld.lt_size (Nat.lt_irrefl _)
    · exact isLast
  · refine ⟨session.position stack, ?_, Nat.le_refl _⟩
    simp [addRecorder, addHandle]

section Steps

variable (holds : session.Holds own recorder stack) (sound : session.Sound origin)

include holds sound

theorem step {result : Session × Outcome}
    (loyal : ∀ target other, operation = .restore target →
      session.handles[index]? = some (.cursor other) → other.cursor = stack.cursor →
      .recorder recorder ∈ other.layers)
    (taken : session.step index operation = some result) :
    result.1.Holds own recorder stack := by
  obtain ⟨handle, isHandle, hasCursor, effect⟩ := sound.step_effect taken
  have fits := holds.tied.owned handle (Array.mem_of_getElem? isHandle)
  let kept (middle : Session) : Prop := middle.Holds own recorder stack
  have initially : kept session := holds
  refine (effect.changes.preserve sound hasCursor ?_ initially).2
  intro middle last middleSound stillCursor change holdsBefore
  refine holdsBefore.keep middleSound stillCursor fits ?_ change
  intro target isRestore isCursor same
  rw [isCursor] at isHandle
  exact loyal target handle.stack isRestore isHandle same

theorem after {steps : List (Nat × Operation)}
    (loyal : session.ReturnsThrough recorder stack.cursor steps) :
    (session.after steps).Holds own recorder stack := by
  induction steps generalizing session with
  | nil => exact holds
  | cons step steps inductionHypothesis =>
      obtain ⟨index, operation⟩ := step
      obtain ⟨loyalHere, loyalLater⟩ := loyal
      simp only [Session.after] at loyalLater ⊢
      cases taken : session.step index operation with
      | none =>
          rw [taken] at loyalLater
          exact inductionHypothesis holds sound loyalLater
      | some result =>
          rw [taken] at loyalLater
          exact inductionHypothesis (holds.step sound loyalHere taken)
            (sound.step_proceeds taken).onward.sound loyalLater

/-- Only a rebase of the recorder itself moves its start. -/
theorem recorder_kept {place : Nat} (found : session.recorders[recorder]? = some place)
    {result : Session × Outcome} (taken : session.step index operation = some result)
    (elsewhere : operation = .rebase → index ≠ own) :
    result.1.recorders[recorder]? = some place ∧
      result.1.handles[own]? = some (.cursor stack) := by
  obtain ⟨handle, isHandle, hasCursor, effect⟩ := sound.step_effect taken
  let kept (middle : Session) : Prop :=
    middle.recorders[recorder]? = some place ∧ middle.handles[own]? = some (.cursor stack)
  have initially : kept session := ⟨found, holds.isHandle⟩
  refine (effect.changes.preserve sound hasCursor ?_ initially).2
  rintro middle last - - change ⟨foundBefore, wasHandle⟩
  refine ⟨?_, change.cursor_kept wasHandle⟩
  rcases change.recorder_cases foundBefore with stays | ⟨isRebase, -, cursor, inner, isCursor⟩
  · exact stays
  · rw [isCursor] at isHandle
    exact absurd (holds.alone index cursor inner isHandle) (elsewhere isRebase)

end Steps

end Holds

/-! ## What a recorder answers -/

/-- The answer of a handle to an operation, if there is such a handle. -/
def answer (session : Session) (index : Nat) (operation : Operation) : Option Answer :=
  (session.step index operation).map (·.2.answer)

theorem reply_of_scanOf {scan : Scan Reply} {reply : Reply} {moved : Nat}
    (isHandle : session.handles[index]? = some (.cursor stack))
    (isScan : session.scanOf (session.view stack) operation = some scan)
    (answers : scan (session.position stack) = (.ok reply, moved)) :
    session.answer index operation = some (.reply reply) := by
  obtain ⟨outcome, taken, isAnswer⟩ := step_of_scanOf isHandle isScan
  rw [answer, taken, Option.map_some, isAnswer, answers]
  rfl

theorem refused_of_scanOf {scan : Scan Reply} {fault : Fault} {moved : Nat}
    (isHandle : session.handles[index]? = some (.cursor stack))
    (isScan : session.scanOf (session.view stack) operation = some scan)
    (refusal : scan (session.position stack) = (.error fault, moved)) :
    session.answer index operation = some (.refused fault) := by
  obtain ⟨outcome, taken, isAnswer⟩ := step_of_scanOf isHandle isScan
  rw [answer, taken, Option.map_some, isAnswer, refusal]
  rfl

section Answers

variable {place : Nat} {inner : List LayerRef}
  (isHandle : session.handles[index]? = some (.cursor stack))
  (outermost : stack.layers = .recorder recorder :: inner)
  (found : session.recorders[recorder]? = some place)

include isHandle outermost found

theorem answer_recordStart : session.answer index .recordStart = some (.reply (.count place)) := by
  have isScan : session.scanOf (session.view stack) .recordStart = some (pure (.count place)) := by
    simp only [scanOf, view, outermost, List.map_cons, layer_recorder found]
  exact reply_of_scanOf isHandle isScan rfl

/-- A recorder that its cursor has reached answers the bytes and the span up to the position. -/
theorem answer_recorded (reached : place ≤ session.position stack) :
    session.answer index .recordedBytes =
        some (.reply (.bytes
          (Utf8.slice (session.source stack).bytes place (session.position stack)))) ∧
      session.answer index .recordedSpan =
        some (.reply (.span ⟨place, session.position stack⟩)) := by
  have starts : (session.view stack).recordingStart = some place := by
    simp only [View.recordingStart, view, outermost, List.map_cons, layer_recorder found]
    rfl
  constructor
  · exact reply_of_scanOf isHandle rfl
      (Scan.bind_of_ok (View.recordedBytes_of_le starts reached))
  · exact reply_of_scanOf isHandle rfl
      (Scan.bind_of_ok (View.recordedSpan_of_le starts reached))

end Answers

/-- A recorder that is held answers the bytes of the buffer from its start to the position, and
keeps its start in every step but a rebase of its own. -/
theorem Holds.answers {own : Nat} {inner : List LayerRef}
    (holds : session.Holds own recorder stack)
    (outermost : stack.layers = .recorder recorder :: inner) (sound : session.Sound origin) :
    ∃ place here,
      session.answer own .recordStart = some (.reply (.count place)) ∧
      session.answer own .tell = some (.reply (.count here)) ∧ place ≤ here ∧
      session.answer own .recordedBytes =
        some (.reply (.bytes (Utf8.slice origin.bytes place here))) ∧
      session.answer own .recordedSpan = some (.reply (.span ⟨place, here⟩)) ∧
      ∀ other operation next outcome, session.step other operation = some (next, outcome) →
        (operation = .rebase → other ≠ own) →
        next.answer own .recordStart = some (.reply (.count place)) := by
  obtain ⟨place, found, reached⟩ := holds.reached
  obtain ⟨bytes, span⟩ := answer_recorded holds.isHandle outermost found reached
  have sameBytes : (session.source stack).bytes = origin.bytes :=
    sound.bytes_eq holds.tied.hasCursor
  rw [sameBytes] at bytes
  refine ⟨place, session.position stack, answer_recordStart holds.isHandle outermost found,
    reply_of_scanOf holds.isHandle rfl rfl, reached, bytes, span, ?_⟩
  intro other operation next outcome taken elsewhere
  obtain ⟨stays, stillHandle⟩ := holds.recorder_kept sound found taken elsewhere
  exact answer_recordStart stillHandle outermost stays

theorem step_record (isHandle : session.handles[index]? = some (.cursor stack)) :
    session.step index .record = some (added stack (session.addRecorder stack)) := by
  simp only [step, isHandle, Option.map_some]
  rfl

/-- **Recordings are exact.** Over every accepted buffer, take a recorder that any run of steps
made, and any further run in which the cursor beneath it is returned only by way of the recorder.
Then its start is at or before the position, it answers exactly the bytes between the two, and their
span. No step but a rebase of the recorder itself moves its start. -/
theorem recordings_are_exact {mode : Mode} {input : Source.Input} {source : Source}
    (codePoints : ∀ text, input = .text text → ∀ code ∈ text, code ≤ Code.greatest)
    (accepted : Source.ofInput mode input = .ok source) (earlier later : List (Nat × Operation))
    (index : Nat) (stack : Stack)
    (isHandle : ((start source).after earlier).handles[index]? = some (.cursor stack))
    (loyal : (((start source).after earlier).after [(index, .record)]).ReturnsThrough
      ((start source).after earlier).recorders.size stack.cursor later) :
    let before := (start source).after earlier
    let own := before.handles.size
    let session := (before.after [(index, .record)]).after later
    before.answer index .record = some (.reply (.handle own)) ∧
    ∃ place here,
      session.answer own .recordStart = some (.reply (.count place)) ∧
      session.answer own .tell = some (.reply (.count here)) ∧ place ≤ here ∧
      session.answer own .recordedBytes =
        some (.reply (.bytes (Utf8.slice source.bytes place here))) ∧
      session.answer own .recordedSpan = some (.reply (.span ⟨place, here⟩)) ∧
      ∀ other operation next outcome, session.step other operation = some (next, outcome) →
        (operation = .rebase → other ≠ own) →
        next.answer own .recordStart = some (.reply (.count place)) := by
  intro before own session
  have started := start_sound (Source.wellFormed_ofInput codePoints accepted)
  have sound : before.Sound source := (started.after_onward earlier).sound
  have tied : before.Tied := (start_tied source).after started earlier
  have hasCursor := sound.hasCursor isHandle
  have recorded : before.step index .record = some (added stack (before.addRecorder stack)) :=
    step_record isHandle
  have isMade : before.after [(index, .record)] = (before.addRecorder stack).1 := by
    simp only [after, recorded]
    rfl
  have madeSound := (sound.addRecorder_onward hasCursor).sound
  rw [isMade] at loyal
  have holds := (Holds.ofRecord tied sound hasCursor).after madeSound loyal
  have sessionSound := (madeSound.after_onward later).sound
  rw [← isMade] at holds sessionSound
  refine ⟨?_, holds.answers rfl sessionSound⟩
  rw [answer, recorded]
  rfl

/-- The cursor is returned by way of the outer of two recorders, and the inner one is rebased. -/
theorem recordings_are_exact_nested :
    let source : Source := .ofBytes [0x61, 0x62, 0x63, 0x64]
    let later : List (Nat × Operation) :=
      [(1, .advance), (1, .record), (1, .restore (.position 1)), (2, .rebase), (0, .advance)]
    let session := (((start source).after [(0, .advance)]).after [(0, .record)]).after later
    session.recorders = #[1, 1] ∧
      ∃ place here, session.answer 1 .recordStart = some (.reply (.count place)) ∧
        place ≤ here ∧
        session.answer 1 .recordedBytes =
          some (.reply (.bytes (Utf8.slice source.bytes place here))) := by
  intro source later session
  have accepted : Source.ofInput .bytes (.bytes [0x61, 0x62, 0x63, 0x64]) = .ok source := rfl
  let made := ((start source).after [(0, .advance)]).after [(0, .record)]
  have layers : ((((made.after [(1, .advance)]).after [(1, .record)]).handles[1]?).map
      (·.stack.layers)) = some [.recorder 0] := by
    decide +kernel
  have loyal : made.ReturnsThrough 0 0 later := by
    refine ⟨nofun, nofun, ?_, nofun, nofun, trivial⟩
    intro target stack _ isHandle _
    rw [isHandle] at layers
    have isLayers : stack.layers = [.recorder 0] := Option.some.inj layers
    rw [isLayers]
    exact List.mem_singleton.mpr rfl
  have isHandle : ((start source).after [(0, .advance)]).handles[0]? = some (.cursor ⟨0, []⟩) := rfl
  obtain ⟨-, place, here, starts, -, reached, bytes, -⟩ :=
    recordings_are_exact (by rintro text ⟨⟩) accepted [(0, .advance)] later 0 ⟨0, []⟩ isHandle loyal
  exact ⟨by decide +kernel, place, here, starts, reached, bytes⟩

/-! ## Recorded texts -/

/-- The outermost recorder of a stack is where its view starts to record. -/
theorem exists_recordingStart (session : Session)
    (member : .recorder recorder ∈ stack.layers) :
    ∃ other, .recorder other ∈ stack.layers ∧
      (session.view stack).recordingStart = some (session.recorders.getD other 0) := by
  obtain ⟨cursor, layers⟩ := stack
  simp only [view, View.recordingStart]
  induction layers with
  | nil => cases member
  | cons layer inner inductionHypothesis =>
      cases layer with
      | recorder first => exact ⟨first, List.mem_cons_self .., rfl⟩
      | ignoring unit =>
          obtain ⟨other, isInner, starts⟩ := inductionHypothesis (by simpa using member)
          exact ⟨other, List.mem_cons_of_mem _ isInner, starts⟩
      | stopped =>
          obtain ⟨other, isInner, starts⟩ := inductionHypothesis (by simpa using member)
          exact ⟨other, List.mem_cons_of_mem _ isInner, starts⟩

/-- A handle with a recorder records from a position of its source. -/
theorem Tied.recordingStart_admits (tied : session.Tied)
    (isHandle : session.handles[index]? = some (.cursor stack))
    (member : .recorder recorder ∈ stack.layers) :
    ∃ place, (session.view stack).recordingStart = some place ∧
      (session.source stack).Admits place := by
  obtain ⟨other, isOther, starts⟩ := session.exists_recordingStart member
  obtain ⟨place, found, admits⟩ :=
    (tied _ (Array.mem_of_getElem? isHandle) other isOther).admitted
  rw [Array.getD_eq_getD_getElem?, found, Option.getD_some] at starts
  exact ⟨place, starts, admits⟩

/-- A bare cursor over a part of a source yields the units of the part, and ends at its end. -/
theorem yields_part {source : Source} {first last : Nat} (firstAdmits : source.Admits first)
    (lastAdmits : source.Admits last) (ordered : first ≤ last) :
    ∃ part, View.bounded ⟨source, []⟩ first last = .ok part ∧
      Scan.Yields part.advance first ((source.narrowed first last).unitsFrom first) last := by
  let part : View := ⟨source.narrowed first last, []⟩
  have admits := (firstAdmits.wellFormed_narrowed lastAdmits ordered).admits_start
  have placed : part.Placed first := ⟨admits, nofun⟩
  obtain ⟨final, yields, finalPlaced, spent⟩ := part.reads.yields placed
  have isLast : final = last :=
    finalPlaced.1.eq_of_unitsFrom_eq admits.admits_stop
      (spent.trans (source.narrowed first last).unitsFrom_stop.symm)
  rw [isLast] at yields
  refine ⟨part, ?_, yields⟩
  rw [View.bounded, firstAdmits.bounded_eq lastAdmits ordered]
  rfl

/-- **Recorded text always decodes.** Over every accepted text, after every run of steps and through
every handle with a recorder in its stack, the recorded text is refused if the cursor is before the
start of the recording, and for no other cause. Otherwise it is what a bare cursor over the recorded
bytes yields, scalar by scalar up to its end. -/
theorem recorded_text_decodes {input : Source.Input} {source : Source}
    (codePoints : ∀ text, input = .text text → ∀ code ∈ text, code ≤ Code.greatest)
    (accepted : Source.ofInput .text input = .ok source) (steps : List (Nat × Operation))
    (index recorder : Nat) (stack : Stack)
    (isHandle : ((start source).after steps).handles[index]? = some (.cursor stack))
    (hasRecorder : .recorder recorder ∈ stack.layers) :
    let session := (start source).after steps
    ∃ place here,
      session.answer index .recordingStart = some (.reply (.count place)) ∧
      session.answer index .tell = some (.reply (.count here)) ∧
      (here < place →
        session.answer index .recordedText = some (.refused (.behindRecording here place)) ∧
        session.answer index .recordedTextIfValid =
          some (.refused (.behindRecording here place))) ∧
      (place ≤ here → ∃ text part,
        session.answer index .recordedText = some (.reply (.text text)) ∧
        session.answer index .recordedTextIfValid = some (.reply (.text text)) ∧
        View.bounded ⟨session.source stack, []⟩ place here = .ok part ∧
        Scan.Yields part.advance place text here) := by
  intro session
  have started := start_sound (Source.wellFormed_ofInput codePoints accepted)
  have sound : session.Sound source := (started.after_onward steps).sound
  have tied : session.Tied := (start_tied source).after started steps
  have hasCursor := sound.hasCursor isHandle
  obtain ⟨place, starts, placeAdmits⟩ := tied.recordingStart_admits isHandle hasRecorder
  have startScan : session.scanOf (session.view stack) .recordingStart =
      some (pure (.count place)) := by
    simp only [scanOf, starts]
    rfl
  refine ⟨place, session.position stack, reply_of_scanOf isHandle startScan rfl,
    reply_of_scanOf isHandle rfl rfl, ?_, ?_⟩
  · intro behind
    have refusal := View.recordedText_of_lt starts behind
    have refusal? := View.recordedText?_of_lt starts behind
    exact ⟨refused_of_scanOf isHandle rfl (Scan.bind_of_error refusal),
      refused_of_scanOf isHandle rfl (Scan.bind_of_error refusal?)⟩
  · intro reached
    have isText : (session.view stack).source.mode = .text :=
      (sound.mode_eq hasCursor).trans (Source.mode_ofInput accepted)
    have admits := sound.admits hasCursor
    have decoded := View.recordedText_of_le isText placeAdmits admits starts reached
    have decoded? := View.recordedText?_of_ok decoded
    obtain ⟨part, isPart, yields⟩ := yields_part placeAdmits admits reached
    exact ⟨_, part, reply_of_scanOf isHandle rfl (Scan.bind_of_ok decoded),
      reply_of_scanOf isHandle rfl (Scan.bind_of_ok decoded?), isPart, yields⟩

/-- The text `é` is recorded over a handle that ignores commas, and read to its end. -/
theorem recorded_text_decodes_ignoring :
    let source : Source := ⟨.text, #[0xC3, 0xA9], 0, 2⟩
    let session := (start source).after [(0, .ignore (.integer 0x2C)), (1, .record), (0, .consume)]
    session.cursors = #[⟨source, 2⟩] ∧
      ∃ text part here, session.answer 2 .recordedText = some (.reply (.text text)) ∧
        Scan.Yields (View.advance part) 0 text here := by
  intro source session
  have accepted : Source.ofInput .text (.text [0xE9]) = .ok source := rfl
  have isHandle : session.handles[2]? = some (.cursor ⟨0, [.recorder 0, .ignoring 0x2C]⟩) := rfl
  have isStart : session.answer 2 .recordingStart = some (.reply (.count 0)) := rfl
  obtain ⟨place, here, starts, -, -, decodes⟩ :=
    recorded_text_decodes (by rintro text ⟨⟩; decide) accepted _ 2 0 _ isHandle (by decide)
  cases isStart.symm.trans starts
  obtain ⟨text, part, isText, -, -, yields⟩ := decodes (Nat.zero_le here)
  exact ⟨by decide +kernel, text, part, here, isText, yields⟩

end RecordScan.Session
