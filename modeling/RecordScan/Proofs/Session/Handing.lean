import RecordScan.Proofs.Scan.Sweeps
import RecordScan.Proofs.Session.Locality

/-!
Contract: the segments that the splitters over one cursor hand out.

Owns: the segments of a step (`Session.handing`) and of a run (`Session.handedOut`),
over all splitters of a cursor; runs in which that cursor is never returned
(`Session.NeverReturns`); that the cursor then only moves forward and no segment
reaches into a later one, however the steps are interleaved; and that a splitter that
is exhausted stays so and refuses every call without a change.

A splitter keeps no position. Its segments start where the cursor stands, wherever other
handles have moved it, so their order rests on every other step going forward.
-/

namespace RecordScan.Session

variable {origin : Source} {session : Session} {handle : Handle} {operation : Operation}
  {stack parent : Stack} {index : Nat} {delimiter : Pattern}

/-! ## What is handed out -/

/-- The view of the handle that a step answers. -/
def answeredView (result : Session × Outcome) : Option View :=
  match result.2.answer with
  | .reply (.handle made) => result.1.handles[made]?.map fun handle => result.1.view handle.stack
  | _ => none

/-- The segments that an operation on a handle hands out, in order: the one that a splitter
answers, or all that a function is applied to. -/
def handing (session : Session) (index : Nat) (handle : Handle) (operation : Operation) :
    List View :=
  let view := session.view handle.stack
  let here := session.position handle.stack
  match handle, operation with
  | .splitter _ _ _, .next => ((session.step index .next).bind answeredView).toList
  | .splitter _ delimiter exhausted, .mapSegments task
  | .splitter _ delimiter exhausted, .forEachSegment task =>
      view.visited delimiter task.visit ⟨here, exhausted⟩
  | .cursor _, .keyValues delimiter =>
      match delimiter.test? view.mode with
      | .ok _ => view.visited delimiter View.keyValue ⟨here, false⟩
      | .error _ => []
  | _, _ => []

/-- The segments over a cursor that a step hands out. -/
def handedBy (session : Session) (cursor index : Nat) (operation : Operation) : List View :=
  match session.handles[index]? with
  | some handle =>
      if handle.stack.cursor = cursor then session.handing index handle operation else []
  | none => []

/-- The segments over a cursor that a run hands out, in order. -/
def handedOut (session : Session) (cursor : Nat) : List (Nat × Operation) → List View
  | [] => []
  | (index, operation) :: steps =>
      session.handedBy cursor index operation ++
        (session.after [(index, operation)]).handedOut cursor steps

/-- Along a run, no handle over a cursor is told to return. -/
def NeverReturns (session : Session) (cursor : Nat) : List (Nat × Operation) → Prop
  | [] => True
  | (index, operation) :: steps =>
      (∀ target stack, operation = .restore target →
        session.handles[index]? = some (.cursor stack) → stack.cursor ≠ cursor) ∧
      (session.after [(index, operation)]).NeverReturns cursor steps

/-! ## A segment behind its handle -/

/-- The layers of a part are all ignoring ones, so its handle stands for the part itself. -/
theorem map_layersOf_part (session : Session) (view : View) (start stop : Nat) :
    (Product.layersOf (view.part start stop)).map session.layer =
      (view.part start stop).layers := by
  simp only [Product.layersOf, View.part]
  induction view.layers with
  | nil => rfl
  | cons outermost inner inductionHypothesis =>
      cases outermost with
      | recording start => simpa [View.isKept] using inductionHypothesis
      | ignoring unit =>
          rw [List.filter_cons_of_pos rfl]
          simpa [Session.layer] using inductionHypothesis
      | stopped => simpa [View.isKept] using inductionHypothesis

theorem answeredView_segment {deed : Deed} {view : View} {start stop : Nat}
    (isSegment : deed.product = .segment (view.part start stop)) :
    answeredView (session.enact index handle deed) = some (view.part start stop) := by
  have isAnswer : (session.enact index handle deed).2.answer =
      .reply (.handle session.handles.size) := by
    rw [enact, isSegment]
    rfl
  have isHandle : (session.enact index handle deed).1.handles[session.handles.size]? =
      some (.cursor ⟨session.cursors.size, Product.layersOf (view.part start stop)⟩) := by
    rw [enact_handles, isSegment, Array.getElem?_append_right (by simp)]
    simp
  have isCursor : (session.enact index handle deed).1.cursors[session.cursors.size]? =
      some ⟨(view.part start stop).source, (view.part start stop).source.start⟩ := by
    rw [enact_cursors, isSegment, Array.getElem?_append_right (by simp)]
    simp
  simp only [answeredView, isAnswer, isHandle, Option.map_some, Session.view, Session.source,
    Handle.stack, isCursor, map_layersOf_part]

/-- What a splitter hands out in answer to a call is what its view hands out. -/
theorem handing_next {exhausted : Bool} (sound : session.Sound origin)
    (isHandle : session.handles[index]? = some (.splitter parent delimiter exhausted)) :
    session.handing index (.splitter parent delimiter exhausted) .next =
      ((session.view parent).nextSegment delimiter
        ⟨session.position parent, exhausted⟩).1.toOption.toList := by
  have hasCursor : parent.cursor < session.cursors.size :=
    sound.handles _ (Array.mem_of_getElem? isHandle)
  have taken := step_eq_enact isHandle hasCursor .next
  simp only [handing, taken, Option.bind_some]
  congr 1
  obtain ⟨moved, -, ⟨start, stop, -, given⟩ | ⟨fault, -, given⟩⟩ :=
    View.nextSegment_cases delimiter ⟨session.position parent, exhausted⟩
      (sound.admits hasCursor).fromSelf
  · have isSegment : (session.deed (.splitter parent delimiter exhausted) .next).product =
        .segment ((session.view parent).part start stop) := by
      simp only [deed, Deed.ofSplitter, Handle.stack, given]
    rw [answeredView_segment isSegment, given]
    rfl
  · simp only [given, answeredView, enact, deed, Deed.ofSplitter, Handle.stack, Except.toOption,
      Product.answerAt]

/-- Reading lines moves the cursor by the sweep over them. -/
theorem position_deed_keyValues {test : Code → Bool}
    (tested : delimiter.test? (session.view stack).mode = .ok test) :
    (session.deed (.cursor stack) (.keyValues delimiter)).position =
      ((session.view stack).sweep delimiter View.keyValue
        ⟨session.position stack, false⟩).progress.position := by
  let view := session.view stack
  let here := session.position stack
  have isScan : (session.deed (.cursor stack) (.keyValues delimiter)).position =
      ((do return Reply.list ((← view.keyValues delimiter).map Reply.keyValue) : Scan Reply)
        here).2 := rfl
  have swept : (view.keyValues delimiter here).2 =
      (view.sweep delimiter View.keyValue ⟨here, false⟩).progress.position := by
    simp only [View.keyValues, view, tested]
    split
    · rfl
    · rfl
  rw [isScan, ← swept]
  cases answered : view.keyValues delimiter here with
  | mk answer moved =>
      cases answer with
      | ok lines => rw [Scan.bind_of_ok answered]; rfl
      | error fault => rw [Scan.bind_of_error answered]

/-! ## Steps -/

section Steps

variable {result : Session × Outcome} (sound : session.Sound origin)
  (isHandle : session.handles[index]? = some handle)
  (taken : session.step index operation = some result)

include sound isHandle taken

/-- No step but a return by way of a cursor takes that cursor back. -/
theorem Sound.position_le (hasCursor : stack.cursor < session.cursors.size)
    (forward : ∀ target, operation = .restore target → handle = .cursor handle.stack →
      handle.stack.cursor ≠ stack.cursor) :
    session.position stack ≤ result.1.position stack := by
  obtain ⟨found, isFound, foundCursor, effect⟩ := sound.step_effect taken
  obtain rfl : handle = found := Option.some.inj (isHandle.symm.trans isFound)
  -- Followed change by change, since one step may move a cursor more than once.
  let kept (middle : Session) : Prop :=
    stack.cursor < middle.cursors.size ∧ session.position stack ≤ middle.position stack
  have initially : kept session := ⟨hasCursor, Nat.le_refl _⟩
  refine (effect.changes.preserve sound foundCursor ?_ initially).2.2
  rintro middle last middleSound stillFound change ⟨stillCursor, reached⟩
  refine ⟨(change.onward middleSound stillFound).hasCursor stillCursor, ?_⟩
  rcases change.position_cases stillCursor with onward | ⟨same, isCursor, ⟨target, isRestore⟩, -⟩
  · exact Nat.le_trans reached onward
  · exact absurd same.symm (forward target isRestore isCursor)

/-- A step leaves the cursor beneath its handle where its deed says. -/
theorem Sound.position_step :
    result.1.position handle.stack = (session.deed handle operation).position := by
  have hasCursor := sound.handles handle (Array.mem_of_getElem? isHandle)
  rw [step_eq_enact isHandle hasCursor, Option.some.injEq] at taken
  rw [← taken, position, enact_cursor_moved (Array.getElem?_eq_getElem hasCursor)]

/-- The segments of a step lie in order between the positions before and after it. -/
theorem Sound.handing_ordered
    (forward : ∀ target, operation = .restore target → handle ≠ .cursor handle.stack) :
    View.Ordered (session.position handle.stack) (session.handing index handle operation)
      (result.1.position handle.stack) := by
  have hasCursor := sound.handles handle (Array.mem_of_getElem? isHandle)
  have admits : (session.view handle.stack).source.Admits (session.position handle.stack) :=
    sound.admits hasCursor
  have moves : session.position handle.stack ≤ result.1.position handle.stack :=
    sound.position_le isHandle taken hasCursor fun target isRestore isCursor =>
      absurd isCursor (forward target isRestore)
  have stands := sound.position_step isHandle taken
  cases handle with
  | cursor stack =>
      cases operation with
      | keyValues delimiter =>
          dsimp only [handing, Handle.stack] at moves admits stands ⊢
          cases tested : delimiter.test? (session.view stack).mode with
          | error fault => exact moves
          | ok test =>
              rw [stands, position_deed_keyValues tested]
              exact View.visited_ordered _ delimiter View.keyValue ⟨_, false⟩ admits
      | _ => exact moves
  | splitter parent delimiter exhausted =>
      cases operation with
      | next =>
          rw [handing_next sound isHandle]
          dsimp only [Handle.stack] at moves admits stands ⊢
          cases given : (session.view parent).nextSegment delimiter
              ⟨session.position parent, exhausted⟩ with
          | mk answer moved =>
              cases answer with
              | error fault => exact moves
              | ok segment =>
                  simp only [deed, Deed.ofSplitter, Handle.stack, given] at stands
                  rw [stands]
                  exact (View.nextSegment_ordered admits given).1
      | mapSegments task =>
          rw [stands]
          exact View.visited_ordered _ delimiter task.visit ⟨_, exhausted⟩ admits
      | forEachSegment task =>
          rw [stands]
          exact View.visited_ordered _ delimiter task.visit ⟨_, exhausted⟩ admits
      | _ => exact moves
  | run stack pattern => exact moves

end Steps

theorem after_of_step {result : Session × Outcome}
    (taken : session.step index operation = some result) :
    session.after [(index, operation)] = result.1 := by
  simp only [after, taken]

theorem step_eq_none (isNone : session.handles[index]? = none) :
    session.step index operation = none := by
  rw [step, isNone, Option.map_none]

/-- Over a cursor that is not told to return, the segments of a step lie between its positions. -/
theorem Sound.handedBy_ordered (sound : session.Sound origin)
    (hasCursor : stack.cursor < session.cursors.size)
    (forward : ∀ target other, operation = .restore target →
      session.handles[index]? = some (.cursor other) → other.cursor ≠ stack.cursor) :
    View.Ordered (session.position stack) (session.handedBy stack.cursor index operation)
      ((session.after [(index, operation)]).position stack) := by
  rw [handedBy]
  cases isHandle : session.handles[index]? with
  | none =>
      simp only [after, step_eq_none isHandle]
      exact Nat.le_refl _
  | some handle =>
      obtain ⟨result, taken⟩ : ∃ result, session.step index operation = some result :=
        ⟨_, step_eq_enact isHandle (sound.handles handle (Array.mem_of_getElem? isHandle))
          operation⟩
      have away (target : Target) (isRestore : operation = .restore target)
          (isCursor : handle = .cursor handle.stack) : handle.stack.cursor ≠ stack.cursor :=
        forward target handle.stack isRestore (isCursor ▸ isHandle)
      rw [after_of_step taken]
      dsimp only
      split
      · next same =>
          rw [position_congr same.symm, position_congr same.symm]
          exact sound.handing_ordered isHandle taken fun target isRestore isCursor =>
            away target isRestore isCursor same
      · exact sound.position_le isHandle taken hasCursor away

/-! ## Runs -/

theorem after_cons (session : Session) (step : Nat × Operation) (steps : List (Nat × Operation)) :
    session.after (step :: steps) = (session.after [step]).after steps := by
  obtain ⟨index, operation⟩ := step
  simp only [after]
  split
  · rfl
  · rfl

theorem NeverReturns.take {cursor : Nat} {steps : List (Nat × Operation)}
    (forward : session.NeverReturns cursor steps) (count : Nat) :
    session.NeverReturns cursor (steps.take count) := by
  induction steps generalizing session count with
  | nil => rwa [List.take_nil]
  | cons step steps inductionHypothesis =>
      cases count with
      | zero => trivial
      | succ count => exact ⟨forward.1, inductionHypothesis forward.2 count⟩

section Runs

variable {steps : List (Nat × Operation)} (sound : session.Sound origin)
  (hasCursor : stack.cursor < session.cursors.size)
  (forward : session.NeverReturns stack.cursor steps)

include sound hasCursor forward

/-- The segments of a run lie in order between the positions before and after it. -/
theorem Sound.handedOut_ordered :
    View.Ordered (session.position stack) (session.handedOut stack.cursor steps)
      ((session.after steps).position stack) := by
  induction steps generalizing session with
  | nil => exact Nat.le_refl _
  | cons step steps inductionHypothesis =>
      obtain ⟨index, operation⟩ := step
      have onward := sound.after_onward [(index, operation)]
      rw [after_cons]
      exact (sound.handedBy_ordered hasCursor forward.1).append
        (inductionHypothesis onward.sound (onward.hasCursor hasCursor) forward.2)

/-- A run takes no cursor back that it never returns. -/
theorem Sound.position_mono {first last : Nat} (ordered : first ≤ last) :
    (session.after (steps.take first)).position stack ≤
      (session.after (steps.take last)).position stack := by
  induction steps generalizing session first last with
  | nil => simp
  | cons step steps inductionHypothesis =>
      cases first with
      | zero => exact (sound.handedOut_ordered hasCursor (forward.take last)).le
      | succ first =>
          obtain ⟨last, rfl⟩ : ∃ less, last = less + 1 := ⟨last - 1, by omega⟩
          have onward := sound.after_onward [step]
          rw [List.take_succ_cons, List.take_succ_cons, after_cons _ _ (steps.take first),
            after_cons _ _ (steps.take last)]
          exact inductionHypothesis onward.sound (onward.hasCursor hasCursor) forward.2
            (Nat.le_of_succ_le_succ ordered)

end Runs

/-! ## Exhausted splitters -/

/-- An exhausted splitter refuses a call, and nothing changes. -/
theorem step_next_exhausted
    (isHandle : session.handles[index]? = some (.splitter parent delimiter true)) :
    ∃ outcome, session.step index .next = some (session, outcome) ∧
      outcome.answer = .refused .exhausted := by
  have unchanged : session.settle index parent ⟨session.position parent, true⟩ = session :=
    @settle_eq_self session _ index isHandle true (by rintro before ⟨⟩; rfl)
  simp only [step, isHandle, Option.map_some, stepSplitter, View.nextSegment_exhausted, unchanged]
  exact ⟨_, rfl, rfl⟩

/-- No operation on an exhausted splitter revives it. -/
theorem exhausted_deed (session : Session) (parent : Stack) (delimiter : Pattern)
    (operation : Operation) :
    (session.deed (.splitter parent delimiter true) operation).exhausted = true := by
  -- A call and a sweep ask for the next segment first, which leaves an exhausted splitter so.
  cases operation with
  | _ => rfl

theorem Sound.exhausted_after (sound : session.Sound origin)
    (isHandle : session.handles[index]? = some (.splitter parent delimiter true))
    (steps : List (Nat × Operation)) :
    (session.after steps).handles[index]? = some (.splitter parent delimiter true) := by
  induction steps generalizing session with
  | nil => exact isHandle
  | cons step steps inductionHypothesis =>
      obtain ⟨other, operation⟩ := step
      rw [after_cons]
      apply inductionHypothesis (sound.after_onward [(other, operation)]).sound
      cases isOther : session.handles[other]? with
      | none =>
          simp only [after, step_eq_none isOther]
          exact isHandle
      | some handle =>
          have hasCursor := sound.handles handle (Array.mem_of_getElem? isOther)
          rw [after_of_step (step_eq_enact isOther hasCursor operation),
            enact_handle_kept isHandle]
          split
          · next same =>
              subst same
              obtain rfl : .splitter parent delimiter true = handle :=
                Option.some.inj (isHandle.symm.trans isOther)
              rw [exhausted_deed]
              rfl
          · rfl

/-! ## Interleaved splitters -/

/-- **Segments are handed out in order and apart.** Over every accepted buffer and after every run
of steps, take any handle, and any further run in which no handle over the same cursor is told to
return. Then the cursor never goes back, and of all segments that splitters over it hand out, each
ends at or before the start of every later one. A splitter that is exhausted refuses every later
call without a change, whatever the steps in between. -/
theorem segments_stay_apart {mode : Mode} {input : Source.Input} {source : Source}
    (codePoints : ∀ text, input = .text text → ∀ code ∈ text, code ≤ Code.greatest)
    (accepted : Source.ofInput mode input = .ok source) (earlier : List (Nat × Operation)) :
    let session := (start source).after earlier
    (∀ (index : Nat) (handle : Handle) steps, session.handles[index]? = some handle →
      session.NeverReturns handle.stack.cursor steps →
      (∀ first last, first ≤ last →
        (session.after (steps.take first)).position handle.stack ≤
          (session.after (steps.take last)).position handle.stack) ∧
      (∀ segment ∈ session.handedOut handle.stack.cursor steps,
        segment.source.start ≤ segment.source.stop) ∧
      (session.handedOut handle.stack.cursor steps).Pairwise fun previous next =>
        previous.source.stop ≤ next.source.start) ∧
    ∀ (index : Nat) parent delimiter,
      session.handles[index]? = some (.splitter parent delimiter true) → ∀ steps, ∃ outcome,
        (session.after steps).step index .next = some (session.after steps, outcome) ∧
        outcome.answer = .refused .exhausted := by
  intro session
  have started := start_sound (Source.wellFormed_ofInput codePoints accepted)
  have sound : session.Sound source := (started.after_onward earlier).sound
  refine ⟨fun index handle steps isHandle forward => ?_, ?_⟩
  · have hasCursor := sound.handles handle (Array.mem_of_getElem? isHandle)
    have ordered := sound.handedOut_ordered hasCursor forward
    exact ⟨fun first last => sound.position_mono hasCursor forward,
      fun segment member => (ordered.mem member).2, ordered.pairwise⟩
  · intro index parent delimiter isHandle steps
    exact step_next_exhausted (sound.exhausted_after isHandle steps)

/-- Two splitters take turns over the bytes `a,b;-c,d`. Between them a look ahead, and a number
that a sign begins and no digit continues; the handle of a segment is told to return. -/
theorem segments_stay_apart_taking_turns :
    let source : Source := .ofBytes [0x61, 0x2C, 0x62, 0x3B, 0x2D, 0x63, 0x2C, 0x64]
    let session := (start source).after
      [(0, .splitOn (.literal (.integer 0x2C))), (0, .splitOn (.literal (.integer 0x3B)))]
    let steps : List (Nat × Operation) :=
      [(1, .next), (0, .peekAt 3), (2, .next), (3, .restore (.position 0)), (0, .number),
        (1, .next), (2, .next), (1, .next)]
    let segments := session.handedOut 0 steps
    (segments.map fun segment => (segment.source.start, segment.source.stop)) =
        [(0, 1), (2, 3), (4, 6), (7, 8), (8, 8)] ∧
      segments.Pairwise fun previous next => previous.source.stop ≤ next.source.start := by
  intro source session steps segments
  have accepted : Source.ofInput .bytes (.bytes [0x61, 0x2C, 0x62, 0x3B, 0x2D, 0x63, 0x2C, 0x64]) =
      .ok source := rfl
  have elsewhere : ((((session.after [(1, .next)]).after [(0, .peekAt 3)]).after
      [(2, .next)]).handles[3]?).map (·.stack.cursor) = some 1 := by
    decide +kernel
  have forward : session.NeverReturns 0 steps := by
    refine ⟨nofun, nofun, nofun, ?_, nofun, nofun, nofun, nofun, trivial⟩
    intro target stack _ isHandle same
    rw [isHandle, Option.map_some, Handle.stack, same] at elsewhere
    cases elsewhere
  obtain ⟨apart, -⟩ := segments_stay_apart (by rintro text ⟨⟩) accepted
    [(0, .splitOn (.literal (.integer 0x2C))), (0, .splitOn (.literal (.integer 0x3B)))]
  obtain ⟨-, -, pairwise⟩ := apart 0 (.cursor ⟨0, []⟩) steps rfl forward
  exact ⟨by decide +kernel, pairwise⟩

end RecordScan.Session
