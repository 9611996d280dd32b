import RecordScan.Proofs.Session.Looking
import RecordScan.Proofs.Session.Recorders
import RecordScan.Proofs.Utf8.Defects

/-!
Contract: what a session answers when it is asked for recorded bytes as text.

Owns: the two requests for a recorded text as steps that leave the session as it was and answer
what the strict reader does on the recorded bytes (`step_recordedText`, `step_recordedTextIfValid`);
and that over a buffer of bytes, a refusal names the first defect by its offset in the whole buffer,
for every cursor and every segment.

Does not own: which texts have no defects at all (`recorded_text_decodes`).

A segment starts anywhere in the buffer and a recording anywhere in its segment, so neither offsets
in the segment nor offsets in the recording are what is named.
-/

namespace RecordScan.Session

variable {session : Session} {operation : Operation} {stack : Stack}
  {index recorder place : Nat} {inner : List LayerRef}

/-! ## Steps that stay -/

/-- An operation whose scan stays where it is leaves the session as it was. -/
theorem step_of_resting {scan : Scan Reply} {result : Except Fault Reply}
    (isHandle : session.handles[index]? = some (.cursor stack))
    (isScan : session.scanOf (session.view stack) operation = some scan)
    (rests : scan (session.position stack) = (result, session.position stack)) :
    ∃ outcome, session.step index operation = some (session, outcome) ∧
      outcome.answer = answerOf result := by
  obtain ⟨outcome, taken, isAnswer⟩ := step_of_scanOf isHandle isScan
  rw [rests] at taken isAnswer
  rw [moveTo_position] at taken
  exact ⟨outcome, taken, isAnswer⟩

theorem answer_of_step {outcome : Outcome} {next : Session}
    (taken : session.step index operation = some (next, outcome)) :
    session.answer index operation = some outcome.answer := by
  rw [answer, taken, Option.map_some]

/-! ## Starts of recordings -/

theorem answer_recordingStart (isHandle : session.handles[index]? = some (.cursor stack))
    (starts : (session.view stack).recordingStart = some place) :
    session.answer index .recordingStart = some (.reply (.count place)) := by
  have isScan : session.scanOf (session.view stack) .recordingStart =
      some (pure (.count place)) := by
    simp only [scanOf, starts]
    rfl
  exact reply_of_scanOf isHandle isScan rfl

/-- A recorder that is outermost starts where its stack records from. -/
theorem Tied.answer_recordStart_eq (tied : session.Tied)
    (isHandle : session.handles[index]? = some (.cursor stack))
    (outermost : stack.layers = .recorder recorder :: inner)
    (starts : (session.view stack).recordingStart = some place) :
    session.answer index .recordStart = some (.reply (.count place)) := by
  have isMember : .recorder recorder ∈ stack.layers := outermost ▸ List.mem_cons_self ..
  obtain ⟨own, found, -⟩ := (tied _ (Array.mem_of_getElem? isHandle) recorder isMember).admitted
  have isStart : (session.view stack).recordingStart = some own := by
    simp only [View.recordingStart, view, outermost, List.map_cons, layer_recorder found]
    rfl
  cases starts.symm.trans isStart
  exact answer_recordStart isHandle outermost found

/-! ## Recorded texts as steps -/

section Reached

variable (isHandle : session.handles[index]? = some (.cursor stack))
  (starts : (session.view stack).recordingStart = some place)
  (reached : place ≤ session.position stack)

include isHandle starts reached

/-- The recorded text is what the strict reader makes of the recorded bytes. -/
theorem step_recordedText :
    ∃ outcome, session.step index .recordedText = some (session, outcome) ∧
      outcome.answer = answerOf (((Utf8.decodeFrom place (Utf8.slice (session.source stack).bytes
        place (session.position stack))).mapError Utf8.Defect.fault).map Reply.text) := by
  refine step_of_resting isHandle rfl ?_
  have answered : View.recordedText (session.view stack) (session.position stack) =
      ((Utf8.decodeFrom place (Utf8.slice (session.source stack).bytes place
        (session.position stack))).mapError Utf8.Defect.fault, session.position stack) :=
    View.recordedText_eq starts reached
  cases decoded : Utf8.decodeFrom place (Utf8.slice (session.source stack).bytes place
      (session.position stack)) with
  | ok text =>
      rw [decoded] at answered
      exact Scan.bind_of_ok answered
  | error defect =>
      rw [decoded] at answered
      exact Scan.bind_of_error answered

/-- Asked for a text if there is one, a recording answers nothing where it has a defect. -/
theorem step_recordedTextIfValid :
    ∃ outcome, session.step index .recordedTextIfValid = some (session, outcome) ∧
      outcome.answer = .reply (.ofText (Utf8.decode (Utf8.slice (session.source stack).bytes place
        (session.position stack))).toOption) :=
  step_of_answer isHandle rfl (Scan.bind_of_ok (View.recordedText?_eq starts reached))

end Reached

/-! ## Recordings of bytes -/

/-- A refusal for the strict reader's sake shows the defect that it found. -/
theorem answerOf_decoded_eq_refused_iff {decoded : Except Utf8.Defect Text} {offset : Nat}
    {reason : Utf8.Reason} :
    answerOf ((decoded.mapError Utf8.Defect.fault).map Reply.text) =
        .refused (.utf8 offset reason) ↔
      decoded = .error ⟨offset, reason⟩ := by
  cases decoded with
  | ok text => simp [answerOf, Except.mapError, Except.map]
  | error defect =>
      obtain ⟨place, cause⟩ := defect
      simp only [answerOf, Except.mapError, Except.map, Utf8.Defect.fault, Answer.refused.injEq,
        Fault.utf8.injEq, Int.natCast_inj, Except.error.injEq, Utf8.Defect.mk.injEq]

/-- **Defects of recorded bytes are placed in the whole buffer.** Over every buffer of bytes, after
every run of steps and through every handle with a recorder in its stack, be it of a segment or not,
neither request for the recorded text changes anything once the cursor has reached the recording. If
the recorded bytes are UTF-8 both answer the text that they encode. If they are not, one is refused
and the other answers nothing, and the refusal names exactly that offset of the buffer, inside the
recording, up to which the recorded bytes are UTF-8 and at which the reader of one scalar, bounded
by the position, is refused. The entry point that takes any integers answers there what that reader
does. -/
theorem recorded_defects_are_absolute (bytes : List UInt8) (steps : List (Nat × Operation))
    (index recorder : Nat) (stack : Stack)
    (isHandle : ((start (.ofBytes bytes)).after steps).handles[index]? = some (.cursor stack))
    (hasRecorder : .recorder recorder ∈ stack.layers) :
    let session := (start (.ofBytes bytes)).after steps
    ∃ place here,
      session.answer index .recordingStart = some (.reply (.count place)) ∧
      (∀ outer inner, stack.layers = .recorder outer :: inner →
        session.answer index .recordStart = some (.reply (.count place))) ∧
      session.answer index .tell = some (.reply (.count here)) ∧
      (place ≤ here →
        (∃ outcome, session.step index .recordedText = some (session, outcome)) ∧
        (∃ outcome, session.step index .recordedTextIfValid = some (session, outcome)) ∧
        ((Utf8.slice bytes.toArray place here).toByteArray.IsValidUTF8 →
          ∃ text : Text,
            text.toString.toByteArray = (Utf8.slice bytes.toArray place here).toByteArray ∧
            session.answer index .recordedText = some (.reply (.text text)) ∧
            session.answer index .recordedTextIfValid = some (.reply (.text text))) ∧
        (¬ (Utf8.slice bytes.toArray place here).toByteArray.IsValidUTF8 →
          (∃ (offset : Nat) (reason : Utf8.Reason),
            session.answer index .recordedText = some (.refused (.utf8 offset reason))) ∧
          session.answer index .recordedTextIfValid = some (.reply .nothing)) ∧
        (∀ offset : Nat,
          (∃ reason, session.answer index .recordedText = some (.refused (.utf8 offset reason))) ↔
            place ≤ offset ∧ offset < here ∧
              (Utf8.slice bytes.toArray place offset).toByteArray.IsValidUTF8 ∧
              ∃ reason,
                Utf8.decodeScalar bytes.toArray offset here = some (.error ⟨offset, reason⟩)) ∧
        ∀ offset : Nat, offset < here → (offset : Int) < Utf8.indexBound →
          Utf8.scalarAt bytes.toArray offset here =
            Utf8.scalarAnswer (Utf8.decodeScalar bytes.toArray offset here)) := by
  intro session
  have accepted : Source.ofInput .bytes (.bytes bytes) = .ok (.ofBytes bytes) := rfl
  have started := start_sound (Source.wellFormed_ofInput (by rintro text ⟨⟩) accepted)
  have sound : session.Sound (.ofBytes bytes) := (started.after_onward steps).sound
  have tied : session.Tied := (start_tied _).after started steps
  have hasCursor := sound.hasCursor isHandle
  have sameBytes : (session.source stack).bytes = bytes.toArray := sound.bytes_eq hasCursor
  have admits := sound.admits hasCursor
  have inside : session.position stack ≤ bytes.toArray.size := by
    rw [← sameBytes]
    exact Nat.le_trans admits.le_stop admits.stop_le_size
  obtain ⟨place, starts, -⟩ := tied.recordingStart_admits isHandle hasRecorder
  refine ⟨place, session.position stack, answer_recordingStart isHandle starts,
    fun outer inner outermost => tied.answer_recordStart_eq isHandle outermost starts,
    reply_of_scanOf isHandle rfl rfl, ?_⟩
  intro reached
  obtain ⟨outcome, taken, isAnswer⟩ := step_recordedText isHandle starts reached
  obtain ⟨outcome?, taken?, isAnswer?⟩ := step_recordedTextIfValid isHandle starts reached
  have answered := answer_of_step taken
  have answered? := answer_of_step taken?
  rw [isAnswer, sameBytes] at answered
  -- One request decodes from the start of the recording and the other from zero; only the offsets
  -- of defects depend on that.
  rw [isAnswer?, sameBytes, ← Utf8.toOption_decodeFrom place] at answered?
  refine ⟨⟨outcome, taken⟩, ⟨outcome?, taken?⟩, ?_, ?_, ?_, ?_⟩
  · intro valid
    obtain ⟨text, decoded⟩ := Utf8.isValidUTF8_iff.mp valid
    obtain ⟨scalars, encoded⟩ := Utf8.decode_eq_ok_iff.mp decoded
    rw [Utf8.decodeFrom_eq_ok_iff.mpr ⟨scalars, encoded⟩] at answered answered?
    refine ⟨text, ?_, answered, answered?⟩
    rw [encoded, Utf8.toByteArray_encodeAll scalars]
  · intro invalid
    cases decoded : Utf8.decodeFrom place
        (Utf8.slice bytes.toArray place (session.position stack)) with
    | ok text =>
        have valid := Utf8.isValidUTF8_iff.mpr
          ⟨text, Utf8.decode_eq_ok_iff.mpr (Utf8.decodeFrom_eq_ok_iff.mp decoded)⟩
        exact absurd valid invalid
    | error defect =>
        rw [decoded] at answered answered?
        exact ⟨⟨defect.offset, defect.reason, answered⟩, answered?⟩
  · intro offset
    rw [← Utf8.decodeFrom_slice_eq_error_iff inside, answered]
    simp only [Option.some.injEq, answerOf_decoded_eq_refused_iff]
    rfl
  · intro offset before index
    exact Utf8.scalarAt_eq_of_le (Nat.lt_of_lt_of_le before inside) inside index

/-- Of `x,aé,` the part between the commas is recorded from its start and left between the two bytes
of `é`. The sequence is whole in the buffer and cut in the recording, and is refused where it starts
in the buffer. -/
theorem recorded_defects_are_absolute_cut_scalar :
    let bytes : List UInt8 := [0x78, 0x2C, 0x61, 0xC3, 0xA9, 0x2C]
    let session := (start (.ofBytes bytes)).after
      [(0, .bounded 2 5), (1, .record), (2, .consumeLength 2)]
    session.answer 2 .recordStart = some (.reply (.count 2)) ∧
      session.answer 2 .tell = some (.reply (.count 4)) ∧
      (∃ reason, session.answer 2 .recordedText = some (.refused (.utf8 (3 : Nat) reason))) ∧
      session.answer 2 .recordedTextIfValid = some (.reply .nothing) := by
  intro bytes session
  have isHandle : session.handles[2]? = some (.cursor ⟨1, [.recorder 0]⟩) := rfl
  have isStart : session.answer 2 .recordStart = some (.reply (.count 2)) := rfl
  have isHere : session.answer 2 .tell = some (.reply (.count 4)) := rfl
  obtain ⟨place, here, -, starts, tells, answers⟩ :=
    recorded_defects_are_absolute bytes _ 2 0 _ isHandle (by decide)
  cases isStart.symm.trans (starts 0 [] rfl)
  cases isHere.symm.trans tells
  obtain ⟨-, -, accepts, refuses, names, -⟩ := answers (by decide)
  have upTo : (Utf8.slice bytes.toArray 2 3).toByteArray.IsValidUTF8 :=
    Utf8.isValidUTF8_encodeAll (show Text.IsScalar [0x61] by simp [Code.isScalar_iff])
  have refused := (names 3).mpr ⟨by decide, by decide, upTo, .truncated, rfl⟩
  refine ⟨isStart, isHere, refused, (refuses fun valid => ?_).2⟩
  obtain ⟨reason, refused⟩ := refused
  obtain ⟨text, -, accepted, -⟩ := accepts valid
  cases refused.symm.trans accepted

end RecordScan.Session
