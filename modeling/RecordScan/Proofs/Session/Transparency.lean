import RecordScan.Proofs.Scan.Transparency
import RecordScan.Proofs.Session.Locality
import RecordScan.Proofs.Session.Recorders

/-!
Contract: a recorder does not show in what is done by way of it.

Owns: a handle over a recorder of what another handle is over (`Handle.recordedBy`); the
operations that ask nothing of the recording (`Operation.Forwards`); that such an operation
has the same deed by way of both handles (`Session.deed_recordedBy`); and the law that it
shows and leaves the same.

The two handles need not be new: the law holds in every state in which the cursor is at or
past the start of the recorder, wherever the recorders beneath it start. It fails for one
request, which the last layer answers by itself: a stopped handle has nothing remaining,
and a recorder over it counts the bytes of the source.
-/

namespace RecordScan

/-! ## Handles over a recorder -/

/-- A handle of the same kind over another stack. -/
def Handle.onStack (change : Stack → Stack) : Handle → Handle
  | .cursor stack => .cursor (change stack)
  | .splitter parent delimiter exhausted => .splitter (change parent) delimiter exhausted
  | .run stack pattern => .run (change stack) pattern

/-- A recorder over a stack. -/
def Stack.recordedBy (recorder : Nat) (stack : Stack) : Stack :=
  ⟨stack.cursor, .recorder recorder :: stack.layers⟩

/-- The handle over a recorder of what it was over. -/
def Handle.recordedBy (recorder : Nat) : Handle → Handle :=
  Handle.onStack (Stack.recordedBy recorder)

/-- A stack with a recorder taken out. -/
def Stack.without (recorder : Nat) (stack : Stack) : Stack :=
  ⟨stack.cursor, stack.layers.filter (· ≠ .recorder recorder)⟩

def Handle.without (recorder : Nat) : Handle → Handle :=
  Handle.onStack (Stack.without recorder)

theorem Handle.stack_onStack (change : Stack → Stack) (handle : Handle) :
    (handle.onStack change).stack = change handle.stack := by
  cases handle <;> rfl

theorem Handle.exhausted?_onStack (change : Stack → Stack) (handle : Handle) :
    (handle.onStack change).exhausted? = handle.exhausted? := by
  cases handle <;> rfl

/-- Under whatever layer, a recorder that is taken out leaves what it was over. -/
theorem Stack.without_cons_recordedBy (recorder : Nat) (stack : Stack) (above : List LayerRef) :
    Stack.without recorder ⟨stack.cursor, above ++ (stack.recordedBy recorder).layers⟩ =
      Stack.without recorder ⟨stack.cursor, above ++ stack.layers⟩ := by
  simp [Stack.without, Stack.recordedBy]

/-- The operations that do not ask for what is recorded, where the recording starts, or what
the handle looks like, and that do not return or record. -/
def Operation.Forwards : Operation → Prop
  | .restore _ | .record | .rebase | .describe | .recordingStart | .recordStart
  | .recordedBytes | .recordedText | .recordedTextIfValid | .recordedSpan
  | .restBytes | .restText | .restTextIfValid => False
  | _ => True

namespace Session

variable {session : Session} {operation : Operation} {recorder : Nat}

/-! ## Deeds by way of a recorder -/

theorem scanOf_recordFrom (session : Session) (view : View) {start position : Nat}
    (started : start ≤ position) (forwards : operation.Forwards)
    (shown : operation = .remaining →
      ¬ (view.layers.head? = some .stopped ∧ position < view.source.stop)) :
    (session.scanOf (view.recordFrom start) operation).map (· position) =
      (session.scanOf view operation).map (· position) := by
  have lookup {α : Type} {first second : Scan α} (same : first position = second position)
      (reply : α → Scan Reply) :
      (some (first >>= reply)).map (· position) = (some (second >>= reply)).map (· position) :=
    congrArg some (Scan.bind_congr_at same reply)
  cases operation with
  | remaining => exact lookup ((view.remaining_recordFrom_iff start position).mpr (shown rfl)) _
  | peekAt distance => exact lookup (view.peekAt_recordFrom started distance) _
  | peekLength needed => exact lookup (view.peekLength_recordFrom started needed) _
  | number => exact lookup (view.number_recordFrom start started) _
  | wholeNumber => exact lookup (view.wholeNumber_recordFrom start started) _
  | keyValue => exact lookup (congrFun (view.keyValue_recordFrom start) position) _
  | keyValues delimiter =>
      exact lookup (congrFun (view.keyValues_recordFrom start delimiter) position) _
  | peek | atEnd | advance | nextIf | advanceIf | consumeWhile | consumeClass | consumeUnitRun
  | consumeCount | consumeLength | consumeAtLeast | countRun | expect | expectEnd =>
      simp [scanOf]
  | restore | record | rebase | describe | recordingStart | recordStart | recordedBytes
  | recordedText | recordedTextIfValid | recordedSpan | restBytes | restText | restTextIfValid =>
      exact forwards.elim
  | _ => rfl

/-- The same deed, save that the handle it makes may be over a recorder or not. -/
inductive Deed.SameBut (recorder : Nat) : Deed → Deed → Prop
  | same (deed : Deed) : SameBut recorder deed deed
  | made (here : Nat) {first second : Handle}
      (same : first.without recorder = second.without recorder) :
      SameBut recorder (.still here (.handle first)) (.still here (.handle second))

theorem Deed.ofChecked_sameBut {α : Type} {here : Nat} (checked : Except Fault α)
    {first second : α → Handle}
    (same : ∀ value, (first value).without recorder = (second value).without recorder) :
    SameBut recorder (.ofChecked here checked fun value => .handle (first value))
      (.ofChecked here checked fun value => .handle (second value)) := by
  cases checked with
  | ok value => exact .made here (same value)
  | error fault => exact .same _

theorem Deed.ofCursor_recordedBy {stack : Stack} {view recorded : View} {here : Nat}
    {first second : Option (Scan Reply)} (forwards : operation.Forwards)
    (sameMode : recorded.mode = view.mode)
    (sameParts : ∀ start stop, recorded.bounded start stop = view.bounded start stop)
    (sameScan : first.map (· here) = second.map (· here)) :
    SameBut recorder (.ofCursor (stack.recordedBy recorder) recorded here first operation)
      (.ofCursor stack view here second operation) := by
  cases first with
  | some scan =>
      cases second with
      | none => cases sameScan
      | some other =>
          have same : scan here = other here := Option.some.inj sameScan
          simp only [ofCursor, same]
          exact .same _
  | none =>
      cases second with
      | some other => cases sameScan
      | none =>
          cases operation with
          | record | rebase => exact forwards.elim
          | splitOn delimiter =>
              simp only [ofCursor, sameMode]
              exact ofChecked_sameBut _ fun _ =>
                congrArg (Handle.splitter · delimiter false)
                  (stack.without_cons_recordedBy recorder [])
          | ignore given =>
              simp only [ofCursor, sameMode]
              exact ofChecked_sameBut _ fun unit =>
                congrArg Handle.cursor (stack.without_cons_recordedBy recorder [.ignoring unit])
          | stop =>
              exact .made here
                (congrArg Handle.cursor (stack.without_cons_recordedBy recorder [.stopped]))
          | bounded first last =>
              simp only [ofCursor, sameParts]
              exact .same _
          | whileClass pattern =>
              exact .made here (congrArg (Handle.run · pattern)
                (stack.without_cons_recordedBy recorder []))
          | whileUnit pattern =>
              simp only [ofCursor, sameMode]
              exact ofChecked_sameBut _ fun _ =>
                congrArg (Handle.run · pattern) (stack.without_cons_recordedBy recorder [])
          | _ => exact .same _

theorem Deed.ofRun_recordFrom (view : View) (start here : Nat) (pattern : Pattern)
    (operation : Operation) :
    ofRun (view.recordFrom start) here pattern operation = ofRun view here pattern operation := by
  cases operation with
  | consume | consumeAtLeast =>
      simp only [ofRun, View.countRun_recordFrom, View.countAtLeast_recordFrom]
  | _ => rfl

theorem Deed.ofSplitter_recordFrom (view : View) (start here : Nat) (delimiter : Pattern)
    (exhausted : Bool) (operation : Operation) :
    ofSplitter (view.recordFrom start) here delimiter exhausted operation =
      ofSplitter view here delimiter exhausted operation := by
  cases operation with
  | next | mapSegments | forEachSegment =>
      simp only [ofSplitter, View.nextSegment_recordFrom, View.sweep_recordFrom]
  | _ => rfl

/-- What a recorder cannot help showing: the bytes that remain, asked of a cursor whose
outermost layer is stopped before the end. -/
def Conceals (session : Session) (operation : Operation) (handle : Handle) : Prop :=
  operation = .remaining ∧ (∃ stack, handle = .cursor stack) ∧
    handle.stack.layers.head? = some .stopped ∧
    session.position handle.stack < (session.source handle.stack).stop

theorem layer_eq_stopped_iff (session : Session) (layer : LayerRef) :
    session.layer layer = .stopped ↔ layer = .stopped := by
  cases layer <;> simp [Session.layer]

theorem head?_view_layers (session : Session) (stack : Stack) :
    (session.view stack).layers.head? = some .stopped ↔
      stack.layers.head? = some .stopped := by
  simp [view, List.head?_map, layer_eq_stopped_iff]

/-- One step by way of a recorder does what it does without. -/
theorem deed_recordedBy {handle : Handle}
    (started : session.recorders.getD recorder 0 ≤ session.position handle.stack)
    (forwards : operation.Forwards) (shown : ¬ session.Conceals operation handle) :
    Deed.SameBut recorder (session.deed (handle.recordedBy recorder) operation)
      (session.deed handle operation) := by
  cases handle with
  | cursor stack =>
      apply Deed.ofCursor_recordedBy forwards rfl fun _ _ => rfl
      refine session.scanOf_recordFrom (session.view stack) started forwards ?_
      rintro rfl ⟨stopped, inside⟩
      exact shown ⟨rfl, ⟨stack, rfl⟩, (session.head?_view_layers stack).mp stopped, inside⟩
  | splitter parent delimiter exhausted =>
      have same : session.deed (Handle.recordedBy recorder (.splitter parent delimiter exhausted))
          operation = session.deed (.splitter parent delimiter exhausted) operation :=
        Deed.ofSplitter_recordFrom (session.view parent) _ _ delimiter exhausted operation
      rw [same]
      exact .same _
  | run stack pattern =>
      have same : session.deed (Handle.recordedBy recorder (.run stack pattern)) operation =
          session.deed (.run stack pattern) operation :=
        Deed.ofRun_recordFrom (session.view stack) _ _ pattern operation
      rw [same]
      exact .same _

/-! ## Steps by way of a recorder -/

/-- Two steps of a session show and leave the same, save that the handles they make may be over
a recorder or not. -/
structure Agrees (session : Session) (recorder : Nat) (first second : Session × Outcome) :
    Prop where
  outcome : first.2 = second.2
  cursors : first.1.cursors = second.1.cursors
  recorders : first.1.recorders = second.1.recorders
  marks : first.1.marks = second.1.marks
  made : (first.1.handles.toList.drop session.handles.size).map (Handle.without recorder) =
    (second.1.handles.toList.drop session.handles.size).map (Handle.without recorder)

theorem drop_enact_handles {index : Nat} {handle : Handle} {deed : Deed} :
    (session.enact index handle deed).1.handles.toList.drop session.handles.size =
      (deed.product.handle? handle.stack session.cursors.size session.recorders.size).toList := by
  rw [enact_handles, Array.toList_append, List.drop_append_of_le_length (by simp),
    List.drop_of_length_le (by simp), List.nil_append, Option.toList_toArray]

theorem Deed.SameBut.agrees {first second : Deed} (same : SameBut recorder first second)
    {handle : Handle} (index other : Nat) :
    session.Agrees recorder (session.enact index (handle.recordedBy recorder) first)
      (session.enact other handle second) := by
  have stack_eq : (handle.recordedBy recorder).stack = handle.stack.recordedBy recorder :=
    handle.stack_onStack _
  have cursor_eq : (handle.recordedBy recorder).stack.cursor = handle.stack.cursor := by
    rw [stack_eq]
    rfl
  have exhausted_eq : (handle.recordedBy recorder).exhausted? = handle.exhausted? :=
    handle.exhausted?_onStack _
  cases same with
  | same =>
      refine ⟨?_, ?_, rfl, rfl, ?_⟩
      · simp only [enact, exhausted_eq]
      · rw [enact_cursors, enact_cursors, cursor_eq]
      · rw [drop_enact_handles, drop_enact_handles, stack_eq]
        cases first.product with
        | recorder =>
            exact congrArg (fun stack => [Handle.cursor stack])
              (handle.stack.without_cons_recordedBy recorder [.recorder session.recorders.size])
        | _ => rfl
  | made here same =>
      refine ⟨?_, ?_, rfl, rfl, ?_⟩
      · simp only [enact, Deed.still, exhausted_eq]
        rfl
      · rw [enact_cursors, enact_cursors, cursor_eq]
        rfl
      · rw [drop_enact_handles, drop_enact_handles]
        exact congrArg (fun handle => [handle]) same

theorem answer_remaining {stack : Stack} {index left : Nat}
    (answer : (session.view stack).remaining (session.position stack) =
      (.ok left, session.position stack)) :
    (session.enact index (.cursor stack) (session.deed (.cursor stack) .remaining)).2.answer =
      .reply (.count left) := by
  change answerOf (((session.view stack).remaining >>= _) (session.position stack)).1 = _
  rw [Scan.bind_of_ok answer]
  rfl

/-- A recorder over a stopped layer shows the bytes that the layer conceals. -/
theorem not_agrees_of_conceals {handle : Handle} {index other : Nat}
    (conceals : session.Conceals operation handle) :
    ¬ session.Agrees recorder
      (session.enact index (handle.recordedBy recorder)
        (session.deed (handle.recordedBy recorder) operation))
      (session.enact other handle (session.deed handle operation)) := by
  obtain ⟨rfl, ⟨stack, rfl⟩, stopped, inside⟩ := conceals
  intro agrees
  obtain ⟨shown, isShown⟩ :=
    (session.view (stack.recordedBy recorder)).remaining_answers (session.position stack)
  obtain ⟨left, isLeft⟩ := (session.view stack).remaining_answers (session.position stack)
  have answers : Answer.reply (.count shown) = .reply (.count left) :=
    (answer_remaining isShown).symm.trans
      ((congrArg Outcome.answer agrees.outcome).trans (answer_remaining isLeft))
  cases answers
  exact ((session.view stack).remaining_recordFrom_iff _ _).mp (isShown.trans isLeft.symm)
    ⟨(session.head?_view_layers stack).mpr stopped, inside⟩

/-- The step of a handle that a sound session has. -/
theorem Sound.step_eq {origin : Source} (sound : session.Sound origin) {index : Nat}
    {handle : Handle} (isHandle : session.handles[index]? = some handle)
    (operation : Operation) :
    session.step index operation =
      some (session.enact index handle (session.deed handle operation)) :=
  step_eq_enact isHandle (sound.handles handle (Array.mem_of_getElem? isHandle)) operation

/-- **A recorder does not show.** Over every accepted buffer and after every run of steps, to
record through a handle makes one over a new recorder that starts where the cursor stands, and
moves nothing. Take any handle, and one of the same kind over a recorder of what the first is
over, in any state in which the cursor is at or past the start of that recorder. Every operation
that asks nothing of the recording then shows the same by way of both handles, a refusal
included, leaves all cursors, recorders and marks the same, and makes the same handles but for
that recorder. The one exception is the number of bytes that remain, where the outermost layer
beneath the recorder is stopped before the end. -/
theorem recording_is_transparent {mode : Mode} {input : Source.Input} {source : Source}
    (codePoints : ∀ text, input = .text text → ∀ code ∈ text, code ≤ Code.greatest)
    (accepted : Source.ofInput mode input = .ok source) (steps : List (Nat × Operation)) :
    let session := (start source).after steps
    (∀ index stack, session.handles[index]? = some (.cursor stack) →
      ∃ next outcome, session.step index .record = some (next, outcome) ∧
        next.cursors = session.cursors ∧
        next.recorders = session.recorders.push (session.position stack) ∧
        next.handles =
          session.handles.push ((Handle.cursor stack).recordedBy session.recorders.size)) ∧
    ∀ plain recorded handle recorder place operation,
      session.handles[plain]? = some handle →
      session.handles[recorded]? = some (handle.recordedBy recorder) →
      session.recorders[recorder]? = some place → place ≤ session.position handle.stack →
      operation.Forwards →
      ∃ first second, session.step recorded operation = some first ∧
        session.step plain operation = some second ∧
        (session.Agrees recorder first second ↔ ¬ session.Conceals operation handle) := by
  intro session
  have sound : session.Sound source :=
    ((start_sound (Source.wellFormed_ofInput codePoints accepted)).after_onward steps).sound
  refine ⟨fun index stack isHandle => ⟨_, _, step_record isHandle, rfl, rfl, rfl⟩, ?_⟩
  intro plain recorded handle recorder place operation isPlain isRecorded found started forwards
  refine ⟨_, _, sound.step_eq isRecorded operation, sound.step_eq isPlain operation, ?_, ?_⟩
  · intro agrees conceals
    exact not_agrees_of_conceals conceals agrees
  · intro shown
    have reached : session.recorders.getD recorder 0 ≤ session.position handle.stack := by
      rw [Array.getD_eq_getD_getElem?, found]
      exact started
    exact (deed_recordedBy reached forwards shown).agrees recorded plain

/-- A recorder over a handle that ignores blanks, from the byte before a blank. -/
theorem recording_is_transparent_before_blank :
    let source : Source := .ofBytes [0x61, 0x20, 0x62]
    let session := (start source).after
      [(0, .ignore (.integer 0x20)), (1, .record), (0, .advance)]
    session.recorders = #[0] ∧ session.cursors = #[⟨source, 1⟩] ∧
      ∃ first second, session.step 2 .advance = some first ∧ session.step 1 .advance = some second ∧
        session.Agrees 0 first second := by
  intro source session
  have accepted : Source.ofInput .bytes (.bytes [0x61, 0x20, 0x62]) = .ok source := rfl
  have isPlain : session.handles[1]? = some (.cursor ⟨0, [.ignoring 0x20]⟩) := rfl
  have isRecorded :
      session.handles[2]? = some ((Handle.cursor ⟨0, [.ignoring 0x20]⟩).recordedBy 0) := rfl
  obtain ⟨-, transparent⟩ := recording_is_transparent (by rintro text ⟨⟩) accepted
    [(0, .ignore (.integer 0x20)), (1, .record), (0, .advance)]
  obtain ⟨first, second, byRecorder, byPlain, agrees⟩ :=
    transparent 1 2 _ 0 0 .advance isPlain isRecorded rfl (by decide +kernel) trivial
  have shown : ¬ session.Conceals .advance (.cursor ⟨0, [.ignoring 0x20]⟩) := fun conceals =>
    nomatch conceals.1
  exact ⟨rfl, rfl, first, second, byRecorder, byPlain, agrees.mpr shown⟩

/-- A stopped handle over three bytes is at its end and has nothing remaining. A recorder laid
over it there is at its end too, and has three bytes remaining. -/
theorem recorder_counts_past_stop :
    let source : Source := .ofBytes [0x61, 0x62, 0x63]
    let session := (start source).after [(0, .stop), (1, .record)]
    session.handles[1]? = some (.cursor ⟨0, [.stopped]⟩) ∧
      session.handles[2]? = some ((Handle.cursor ⟨0, [.stopped]⟩).recordedBy 0) ∧
      session.recorders = #[0] ∧ session.cursors = #[⟨source, 0⟩] ∧
      session.answer 1 .atEnd = some (.reply (.truth true)) ∧
      session.answer 2 .atEnd = some (.reply (.truth true)) ∧
      session.answer 1 .remaining = some (.reply (.count 0)) ∧
      session.answer 2 .remaining = some (.reply (.count 3)) :=
  ⟨rfl, rfl, rfl, rfl, rfl, rfl, rfl, rfl⟩

end Session

end RecordScan
