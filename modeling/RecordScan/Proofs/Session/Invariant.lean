import Mathlib.Logic.Relation
import RecordScan.Proofs.Grammar.Keeping
import RecordScan.Session.Step

/-!
Contract: what holds of a session after every run of steps.

Owns: the invariant of a session over an original source (`Session.Sound`): every
cursor reads the original buffer in the original mode and stands at a position of
its bounds, and every recorder and mark is at a boundary; the steps from one such
session to another that leave all sources alone (`Session.Onward`); the changes that
steps are made of (`Session.Change`) and what a refused operation may blame
(`Operation.Blames`), for every step (`Session.Sound.step_effect`); the step lemma
(`Session.Sound.step_proceeds`) and the run lemma (`Session.Sound.after_onward`).

A handle shares its cursor with others, so that a recorder or a mark may lie
behind or ahead of the cursor, also outside its bounds. Being at a boundary depends
on the buffer alone and survives all of this.
-/

namespace RecordScan

open Scan (Keeps)

/-! ## Causes and tasks -/

theorem Mode.benign_of_encodeLiteral {mode : Mode} {literal : Literal} {fault : Fault}
    (refused : mode.encodeLiteral literal = .error fault) : fault.Benign mode := by
  unfold Mode.encodeLiteral at refused
  cases answer : mode.unit? literal with
  | ok unit =>
      rw [answer] at refused
      exact Mode.benign_of_encodeUnit refused
  | error cause =>
      rw [answer] at refused
      cases refused
      exact Mode.benign_of_unit? answer

theorem SegmentTask.visit_keeps (task : SegmentTask) {segment : View} {floor : Nat}
    (anchored : segment.Anchored) : Keeps segment.source floor (task.visit segment) := by
  cases task with
  | bounds => exact .pure _
  | text => exact anchored.record_bind fun _ recording => recording.restText_keeps.map _
  | textIfValid => exact anchored.record_bind fun _ recording => recording.restText?_keeps.map _
  | bytes => exact anchored.record_bind fun _ recording => recording.restBytes_keeps.map _
  | units => exact segment.takeUnits_keeps.map _
  | count => exact segment.countAll_keeps.map _
  | countRun pattern => exact (segment.countRun_keeps pattern).map _
  | countIgnoring ignored pattern =>
      rcases segment.ignore_cases ignored with ⟨unit, answer⟩ | ⟨fault, benign, refusal⟩
      · simp only [SegmentTask.visit, answer]
        let view : View := ⟨segment.source, .ignoring unit :: segment.layers⟩
        show Keeps view.source floor
          (view.countRun pattern >>= fun count => pure (Reply.count count))
        exact (view.countRun_keeps pattern).map _
      · simp only [SegmentTask.visit, refusal]
        exact .refuse benign
  | number => exact anchored.number_keeps.map _
  | wholeNumber => exact anchored.wholeNumber_keeps.map _
  | keyValue => exact anchored.keyValue_keeps.map _
  | describe => exact segment.describe_keeps.map _

/-! ## The invariant -/

/-- A cursor at a position of its bounds, over the buffer of the original source. -/
structure Cursor.Sound (origin : Source) (cursor : Cursor) : Prop where
  admits : cursor.source.Admits cursor.position
  mode_eq : cursor.source.mode = origin.mode
  bytes_eq : cursor.source.bytes = origin.bytes

theorem Cursor.Sound.boundary_iff {origin : Source} {cursor : Cursor}
    (sound : cursor.Sound origin) {place : Nat} :
    cursor.source.Boundary place ↔ origin.Boundary place :=
  Source.boundary_congr sound.mode_eq sound.bytes_eq

/-- What a refusal of an operation may come from: a benign cause, or the caller's own offset, which
lies inside a scalar. -/
def Operation.Blames (origin : Source) (operation : Operation) (fault : Fault) : Prop :=
  fault.Benign origin.mode ∨
    ∃ place : Nat, fault = .utf8 place .insideSequence ∧ ¬ origin.Boundary place ∧
      (operation = .restore (.position place) ∨
        ∃ first last, operation = .bounded first last ∧ (first = place ∨ last = place))

namespace Session

structure Sound (origin : Source) (session : Session) : Prop where
  wellFormed : origin.WellFormed
  cursors : ∀ cursor ∈ session.cursors, cursor.Sound origin
  recorders : ∀ place ∈ session.recorders, origin.Boundary place
  marks : ∀ place ∈ session.marks, origin.Boundary place
  handles : ∀ handle ∈ session.handles, handle.stack.cursor < session.cursors.size

/-- Every cursor of a session is still there and reads the same part of the same buffer. -/
def SourcesKept (session next : Session) : Prop :=
  ∀ (index : Nat) (cursor : Cursor), session.cursors[index]? = some cursor →
    ∃ position, next.cursors[index]? = some ⟨cursor.source, position⟩

/-- From one session to another that is sound, with all sources kept. -/
structure Onward (origin : Source) (session next : Session) : Prop where
  sound : next.Sound origin
  sources : session.SourcesKept next

variable {origin : Source} {session next : Session} {stack : Stack}

theorem Sound.onward (sound : session.Sound origin) : Onward origin session session :=
  ⟨sound, fun _ cursor found => ⟨cursor.position, found⟩⟩

theorem Onward.trans {last : Session} (first : Onward origin session next)
    (second : Onward origin next last) : Onward origin session last := by
  refine ⟨second.sound, fun index cursor found => ?_⟩
  obtain ⟨position, there⟩ := first.sources index cursor found
  exact second.sources index ⟨cursor.source, position⟩ there

theorem start_sound (wellFormed : origin.WellFormed) : (start origin).Sound origin where
  wellFormed := wellFormed
  cursors := by
    intro cursor member
    obtain rfl := Array.mem_singleton.mp member
    exact ⟨wellFormed.admits_start, rfl, rfl⟩
  recorders := nofun
  marks := nofun
  handles := by
    intro handle member
    obtain rfl := Array.mem_singleton.mp member
    exact Nat.one_pos

/-! ## The view of a handle -/

theorem Sound.hasCursor (sound : session.Sound origin) {index : Nat}
    (isHandle : session.handles[index]? = some (.cursor stack)) :
    stack.cursor < session.cursors.size :=
  sound.handles _ (Array.mem_of_getElem? isHandle)

section Views

variable (sound : session.Sound origin) (hasCursor : stack.cursor < session.cursors.size)

include sound hasCursor

theorem Sound.beneath : ∃ cursor, session.cursors[stack.cursor]? = some cursor ∧
    cursor.Sound origin ∧ session.source stack = cursor.source ∧
    session.position stack = cursor.position := by
  have found : session.cursors[stack.cursor]? = some session.cursors[stack.cursor] :=
    Array.getElem?_eq_getElem hasCursor
  refine ⟨session.cursors[stack.cursor], found, ?_, ?_, ?_⟩
  · exact sound.cursors _ (Array.getElem_mem hasCursor)
  · simp only [Session.source, found]
  · simp only [Session.position, found]

theorem Sound.admits : (session.view stack).source.Admits (session.position stack) := by
  obtain ⟨cursor, -, cursorSound, isSource, isPosition⟩ := sound.beneath hasCursor
  show (session.source stack).Admits (session.position stack)
  rw [isSource, isPosition]
  exact cursorSound.admits

theorem Sound.mode_eq : (session.view stack).source.mode = origin.mode := by
  obtain ⟨cursor, -, cursorSound, isSource, -⟩ := sound.beneath hasCursor
  show (session.source stack).mode = origin.mode
  rw [isSource, cursorSound.mode_eq]

theorem Sound.bytes_eq : (session.view stack).source.bytes = origin.bytes := by
  obtain ⟨cursor, -, cursorSound, isSource, -⟩ := sound.beneath hasCursor
  show (session.source stack).bytes = origin.bytes
  rw [isSource, cursorSound.bytes_eq]

theorem Sound.boundary_iff {place : Nat} :
    (session.view stack).source.Boundary place ↔ origin.Boundary place :=
  Source.boundary_congr (sound.mode_eq hasCursor) (sound.bytes_eq hasCursor)

theorem Sound.anchored : (session.view stack).Anchored := by
  intro start member
  obtain ⟨reference, -, isLayer⟩ := List.mem_map.mp member
  rw [sound.boundary_iff hasCursor]
  cases reference with
  | recorder index =>
      cases isLayer
      cases found : session.recorders[index]? with
      | none =>
          rw [Array.getD_eq_getD_getElem?, found, Option.getD_none]
          exact sound.wellFormed.boundary_zero
      | some place =>
          rw [Array.getD_eq_getD_getElem?, found, Option.getD_some]
          exact sound.recorders place (Array.mem_of_getElem? found)
  | ignoring unit => cases isLayer
  | stopped => cases isLayer

end Views

/-! ## Changes of the state -/

theorem position_moveTo (hasCursor : stack.cursor < session.cursors.size) (place : Nat) :
    (session.moveTo stack place).position stack = place := by
  simp only [position, moveTo, Array.getElem?_modify, if_true, Array.getElem?_eq_getElem hasCursor,
    Option.map_some]

theorem Sound.moveTo_onward (sound : session.Sound origin) {place : Nat}
    (admits : (session.source stack).Admits place) :
    Onward origin session (session.moveTo stack place) where
  sound :=
    { wellFormed := sound.wellFormed
      cursors := by
        intro cursor member
        obtain ⟨index, found⟩ := Array.mem_iff_getElem?.mp member
        rw [moveTo, Array.getElem?_modify] at found
        split at found
        · next isMoved =>
            obtain ⟨old, oldFound, rfl⟩ := Option.map_eq_some_iff.mp found
            have oldSound := sound.cursors old (Array.mem_of_getElem? oldFound)
            have isSource : session.source stack = old.source := by
              simp only [Session.source, isMoved, oldFound]
            exact ⟨isSource ▸ admits, oldSound.mode_eq, oldSound.bytes_eq⟩
        · exact sound.cursors cursor (Array.mem_of_getElem? found)
      recorders := sound.recorders
      marks := sound.marks
      handles := by
        intro handle member
        simpa [moveTo] using sound.handles handle member }
  sources := by
    intro index cursor found
    simp only [moveTo, Array.getElem?_modify, found]
    split
    · exact ⟨place, rfl⟩
    · exact ⟨cursor.position, rfl⟩

theorem Sound.addHandle_onward (sound : session.Sound origin) (handle : Handle)
    (hasCursor : handle.stack.cursor < session.cursors.size) :
    Onward origin session (session.addHandle handle).1 where
  sound :=
    { sound with
      handles := by
        intro other member
        rcases Array.mem_push.mp member with isOld | rfl
        · exact sound.handles other isOld
        · exact hasCursor }
  sources := sound.onward.sources

theorem Sound.addSegment_onward (sound : session.Sound origin) {segment : View}
    (wellFormed : segment.source.WellFormed) (sameMode : segment.source.mode = origin.mode)
    (sameBytes : segment.source.bytes = origin.bytes) :
    Onward origin session (session.addSegment segment).1 := by
  let cursor : Cursor := ⟨segment.source, segment.source.start⟩
  have added : Onward origin session { session with cursors := session.cursors.push cursor } :=
    { sound :=
        { wellFormed := sound.wellFormed
          cursors := by
            intro other member
            rcases Array.mem_push.mp member with isOld | rfl
            · exact sound.cursors other isOld
            · exact ⟨wellFormed.admits_start, sameMode, sameBytes⟩
          recorders := sound.recorders
          marks := sound.marks
          handles := by
            intro handle member
            rw [Array.size_push]
            exact Nat.lt_succ_of_lt (sound.handles handle member) }
      sources := by
        intro index old found
        obtain ⟨inside, -⟩ := Array.getElem?_eq_some_iff.mp found
        refine ⟨old.position, ?_⟩
        rw [Array.getElem?_push, if_neg (Nat.ne_of_lt inside), found] }
  refine added.trans (added.sound.addHandle_onward _ ?_)
  show session.cursors.size < (session.cursors.push cursor).size
  rw [Array.size_push]
  exact Nat.lt_succ_self _

theorem Sound.addRecorder_onward (sound : session.Sound origin)
    (hasCursor : stack.cursor < session.cursors.size) :
    Onward origin session (session.addRecorder stack).1 := by
  have added : Onward origin session
      { session with recorders := session.recorders.push (session.position stack) } :=
    { sound :=
        { sound with
          recorders := by
            intro place member
            rcases Array.mem_push.mp member with isOld | rfl
            · exact sound.recorders place isOld
            · exact (sound.boundary_iff hasCursor).mp (sound.admits hasCursor).boundary }
      sources := sound.onward.sources }
  exact added.trans (added.sound.addHandle_onward _ hasCursor)

theorem Sound.rebase_onward (sound : session.Sound origin)
    (hasCursor : stack.cursor < session.cursors.size) (recorder : Nat) :
    Onward origin session (session.rebase stack recorder) where
  sound :=
    { sound with
      recorders := by
        intro place member
        obtain ⟨index, found⟩ := Array.mem_iff_getElem?.mp member
        rw [rebase, Array.getElem?_modify] at found
        split at found
        · obtain ⟨old, -, rfl⟩ := Option.map_eq_some_iff.mp found
          exact (sound.boundary_iff hasCursor).mp (sound.admits hasCursor).boundary
        · exact sound.recorders place (Array.mem_of_getElem? found) }
  sources := sound.onward.sources

theorem Sound.mark_onward (sound : session.Sound origin)
    (hasCursor : stack.cursor < session.cursors.size) :
    Onward origin session
      { session with marks := session.marks.push (session.position stack) } where
  sound :=
    { sound with
      marks := by
        intro place member
        rcases Array.mem_push.mp member with isOld | rfl
        · exact sound.marks place isOld
        · exact (sound.boundary_iff hasCursor).mp (sound.admits hasCursor).boundary }
  sources := sound.onward.sources

theorem Sound.setExhausted_onward (sound : session.Sound origin) (index : Nat)
    (exhausted : Bool) : Onward origin session (session.setExhausted index exhausted) where
  sound :=
    { sound with
      handles := by
        intro handle member
        obtain ⟨other, found⟩ := Array.mem_iff_getElem?.mp member
        rw [setExhausted, Array.getElem?_modify] at found
        split at found
        · obtain ⟨old, oldFound, isNew⟩ := Option.map_eq_some_iff.mp found
          have inRange := sound.handles old (Array.mem_of_getElem? oldFound)
          cases old with
          | cursor stack => cases isNew; exact inRange
          | splitter parent delimiter before => cases isNew; exact inRange
          | run stack pattern => cases isNew; exact inRange
        · exact sound.handles handle (Array.mem_of_getElem? found) }
  sources := sound.onward.sources

/-! ## Scans of a session -/

/-- Every operation that only moves the cursor keeps to its positions, but for a return to an offset
that the caller gives. -/
theorem scanOf_keeps (session : Session) {view : View} {floor : Nat} (anchored : view.Anchored)
    {operation : Operation} (notRestore : ∀ target, operation ≠ .restore target)
    {scan : Scan Reply} (found : session.scanOf view operation = some scan) :
    Keeps view.source floor scan := by
  cases operation with
  | restore target => exact absurd rfl (notRestore target)
  | recordStart =>
      simp only [scanOf] at found
      split at found
      · cases found
        exact .pure _
      · cases found
  | tell => cases found; exact .position_bind fun _ _ => .pure _
  | peek => cases found; exact view.peek_keeps.map _
  | remaining => cases found; exact view.remaining_keeps.map _
  | atEnd => cases found; exact view.atEnd_keeps.map _
  | peekAt distance => cases found; exact (view.peekAt_keeps distance).map _
  | peekLength needed => cases found; exact (view.peekLength_keeps needed).map _
  | recordingStart => cases found; exact .pure _
  | boundStart => cases found; exact .pure _
  | boundEnd => cases found; exact .pure _
  | isText => cases found; exact .pure _
  | data => cases found; exact .pure _
  | describe => cases found; exact view.describe_keeps.map _
  | unitOf given => cases found; exact Keeps.map _ (.ofExcept fun _ => Mode.benign_of_unit?)
  | encodeUnit given =>
      cases found
      exact Keeps.map _ (.ofExcept fun _ => Mode.benign_of_encodeLiteral)
  | advance => cases found; exact view.advance_keeps.map _
  | nextIf pattern => cases found; exact (view.nextIf_keeps pattern).map _
  | advanceIf pattern => cases found; exact (view.advanceIf_keeps pattern).map _
  | consumeWhile pattern => cases found; exact (view.consumeWhile_keeps pattern).map _
  | consumeClass pattern => cases found; exact (view.consumeClass_keeps pattern).map _
  | consumeUnitRun given => cases found; exact (view.consumeWhile_keeps (.literal given)).map _
  | consumeUntil pattern => cases found; exact (view.consumeUntil_keeps pattern).map _
  | consume => cases found; exact view.consume_keeps.map _
  | consumeCount => cases found; exact view.countAll_keeps.map _
  | consumeLength needed => cases found; exact (view.consumeLength_keeps needed).map _
  | consumeAtLeast needed => cases found; exact (view.consumeAtLeast_keeps needed).map _
  | countRun pattern => cases found; exact (view.countRun_keeps pattern).map _
  | expect pattern => cases found; exact (view.expect_keeps pattern).map _
  | expectEnd => cases found; exact view.expectEnd_keeps.map _
  | recordedBytes => cases found; exact anchored.recordedBytes_keeps.map _
  | recordedText => cases found; exact anchored.recordedText_keeps.map _
  | recordedTextIfValid => cases found; exact anchored.recordedText?_keeps.map _
  | recordedSpan => cases found; exact anchored.recordedSpan_keeps.map _
  | restBytes => cases found; exact anchored.restBytes_keeps.map _
  | restText => cases found; exact anchored.restText_keeps.map _
  | restTextIfValid => cases found; exact anchored.restText?_keeps.map _
  | number => cases found; exact anchored.number_keeps.map _
  | wholeNumber => cases found; exact anchored.wholeNumber_keeps.map _
  | keyValue => cases found; exact anchored.keyValue_keeps.map _
  | keyValues delimiter => cases found; exact (view.keyValues_keeps delimiter).map _
  -- The other operations make handles or move none.
  | _ => cases found

/-- A return to a place goes to a mark or to the offset that is given. -/
theorem exists_of_scanOf_restore {view : View} {target : Target} {scan : Scan Reply}
    (found : session.scanOf view (.restore target) = some scan) :
    ∃ offset : Int, scan = (do view.restore offset; return .nothing) ∧
      (target = .position offset ∨ ∃ place : Nat, place ∈ session.marks ∧ offset = place) := by
  cases target with
  | position offset =>
      cases found
      exact ⟨offset, rfl, .inl rfl⟩
  | mark index =>
      simp only [scanOf] at found
      cases isMark : session.marks[index]? with
      | none =>
          rw [isMark] at found
          cases found
      | some place =>
          rw [isMark] at found
          cases found
          exact ⟨place, rfl, .inr ⟨place, Array.mem_of_getElem? isMark, rfl⟩⟩

/-! ## Steps -/

/-- Another handle over the same cursor, with no recorder that the first lacks, and none as the
outermost layer of a cursor. -/
structure Derives (handle other : Handle) : Prop where
  sameCursor : other.stack.cursor = handle.stack.cursor
  recorders : ∀ recorder, .recorder recorder ∈ other.stack.layers →
    .recorder recorder ∈ handle.stack.layers
  notOutermost : ∀ cursor recorder inner, other ≠ .cursor ⟨cursor, .recorder recorder :: inner⟩

/-- A change of the state that an operation on a handle makes. -/
inductive Change (handle : Handle) (operation : Operation) : Session → Session → Prop
  /-- The cursor moves forward, or returns to a place that lies in all recordings. -/
  | move {session : Session} {place : Nat} (admits : (session.source handle.stack).Admits place)
      (course : session.position handle.stack ≤ place ∨
        handle = .cursor handle.stack ∧ (∃ target, operation = .restore target) ∧
          (session.view handle.stack).Placed place) :
      Change handle operation session (session.moveTo handle.stack place)
  | mark {session : Session} :
      Change handle operation session
        { session with marks := session.marks.push (session.position handle.stack) }
  | handle {session : Session} {other : Handle} (derives : Derives handle other) :
      Change handle operation session (session.addHandle other).1
  | recorder {session : Session} :
      Change handle operation session (session.addRecorder handle.stack).1
  | rebase {session : Session} {stack : Stack} {recorder : Nat} {inner : List LayerRef}
      (isRebase : operation = .rebase) (isHandle : handle = .cursor stack)
      (outermost : stack.layers = .recorder recorder :: inner) :
      Change handle operation session (session.rebase handle.stack recorder)
  | segment {session : Session} {segment : View} (wellFormed : segment.source.WellFormed)
      (sameMode : segment.source.mode = (session.view handle.stack).source.mode)
      (sameBytes : segment.source.bytes = (session.view handle.stack).source.bytes) :
      Change handle operation session (session.addSegment segment).1
  | exhaust {session : Session} {index : Nat} {exhausted : Bool} :
      Change handle operation session (session.setExhausted index exhausted)

/-- Changes one after another. -/
abbrev Changes (handle : Handle) (operation : Operation) : Session → Session → Prop :=
  Relation.ReflTransGen (Change handle operation)

variable {handle : Handle} {operation : Operation}

theorem derives_of_layer (stack : Stack) (layer : LayerRef)
    (notRecorder : ∀ recorder, layer ≠ .recorder recorder) :
    Derives (.cursor stack) (.cursor ⟨stack.cursor, layer :: stack.layers⟩) where
  sameCursor := rfl
  recorders := by
    intro recorder member
    rcases List.mem_cons.mp member with isLayer | isInner
    · exact absurd isLayer.symm (notRecorder recorder)
    · exact isInner
  notOutermost := by
    rintro cursor recorder inner ⟨⟩
    exact notRecorder recorder rfl

theorem Change.onward (change : Change handle operation session next)
    (sound : session.Sound origin) (hasCursor : handle.stack.cursor < session.cursors.size) :
    Onward origin session next := by
  cases change with
  | move admits _ => exact sound.moveTo_onward admits
  | mark => exact sound.mark_onward hasCursor
  | handle derives => exact sound.addHandle_onward _ (derives.sameCursor ▸ hasCursor)
  | recorder => exact sound.addRecorder_onward hasCursor
  | rebase => exact sound.rebase_onward hasCursor _
  | segment wellFormed sameMode sameBytes =>
      exact sound.addSegment_onward wellFormed (sameMode.trans (sound.mode_eq hasCursor))
        (sameBytes.trans (sound.bytes_eq hasCursor))
  | exhaust => exact sound.setExhausted_onward _ _

theorem SourcesKept.source_eq (kept : session.SourcesKept next)
    (hasCursor : stack.cursor < session.cursors.size) :
    next.source stack = session.source stack := by
  have found := Array.getElem?_eq_getElem hasCursor
  obtain ⟨position, there⟩ := kept stack.cursor _ found
  simp only [Session.source, there, found]

theorem Onward.hasCursor (onward : Onward origin session next)
    (hasCursor : stack.cursor < session.cursors.size) : stack.cursor < next.cursors.size := by
  obtain ⟨position, there⟩ := onward.sources stack.cursor _ (Array.getElem?_eq_getElem hasCursor)
  exact (Array.getElem?_eq_some_iff.mp there).1

/-- What each change of a sound session keeps, all changes of a step keep. -/
theorem Changes.preserve {kept : Session → Prop} (changes : Changes handle operation session next)
    (sound : session.Sound origin) (hasCursor : handle.stack.cursor < session.cursors.size)
    (step : ∀ {middle last : Session}, middle.Sound origin →
      handle.stack.cursor < middle.cursors.size → Change handle operation middle last →
      kept middle → kept last)
    (initially : kept session) : Onward origin session next ∧ kept next := by
  induction changes with
  | refl => exact ⟨sound.onward, initially⟩
  | tail _ change inductionHypothesis =>
      obtain ⟨onward, keptBefore⟩ := inductionHypothesis
      have stillCursor := onward.hasCursor hasCursor
      exact ⟨onward.trans (change.onward onward.sound stillCursor),
        step onward.sound stillCursor change keptBefore⟩

theorem Changes.onward (changes : Changes handle operation session next)
    (sound : session.Sound origin) (hasCursor : handle.stack.cursor < session.cursors.size) :
    Onward origin session next :=
  (changes.preserve sound hasCursor (fun _ _ _ _ => trivial) trivial).1

/-- What an operation on a handle does: a row of changes, and it blames nothing but its own
offset. -/
structure Effect (origin : Source) (session : Session) (handle : Handle) (operation : Operation)
    (result : Session × Outcome) : Prop where
  changes : Changes handle operation session result.1
  blames : ∀ fault, result.2.answer = .refused fault → operation.Blames origin fault

theorem eq_error_of_answerOf {result : Except Fault Reply} {fault : Fault}
    (refused : answerOf result = .refused fault) : result = .error fault := by
  cases result with
  | ok reply => cases refused
  | error cause =>
      cases refused
      rfl

theorem eq_ok_of_answerOf {result : Except Fault Reply} {reply : Reply}
    (replied : answerOf result = .reply reply) : result = .ok reply := by
  cases result with
  | ok value =>
      cases replied
      rfl
  | error fault => cases replied

theorem Changes.effect (changes : Changes handle operation session next) {answer : Answer}
    (blames : ∀ fault, answer = .refused fault → operation.Blames origin fault) :
    Effect origin session handle operation (next.plainOutcome stack answer) :=
  ⟨changes, blames⟩

theorem Changes.replies (changes : Changes handle operation session next) {reply : Reply} :
    Effect origin session handle operation (next.plainOutcome stack (.reply reply)) :=
  changes.effect (by rintro fault ⟨⟩)

theorem Effect.unsupported {outcome : Outcome} (isUnsupported : outcome.answer = .unsupported) :
    Effect origin session handle operation (session, outcome) := by
  refine ⟨.refl, fun fault refused => ?_⟩
  rw [isUnsupported] at refused
  cases refused

theorem addChecked_effect {α : Type} {checked : Except Fault α} {add : α → Session × Nat}
    (blames : ∀ fault, checked = .error fault → operation.Blames origin fault)
    (adds : ∀ value, checked = .ok value → Change handle operation session (add value).1) :
    Effect origin session handle operation (session.addChecked stack checked add) := by
  cases checked with
  | ok value => exact Changes.replies (.single (adds value rfl))
  | error fault =>
      refine Changes.effect .refl ?_
      rintro other ⟨⟩
      exact blames fault rfl

theorem Change.forward {place : Nat}
    (admits : (session.view handle.stack).source.AdmitsFrom (session.position handle.stack)
      place) :
    Change handle operation session (session.moveTo handle.stack place) :=
  .move admits.toAdmits (.inl admits.floor_le)

theorem settle_changes (index : Nat) {progress : Progress}
    (admits : (session.view handle.stack).source.AdmitsFrom (session.position handle.stack)
      progress.position) :
    Changes handle operation session (session.settle index handle.stack progress) :=
  .tail (.single (Change.forward admits)) .exhaust

section Steps

variable (sound : session.Sound origin) (hasCursor : stack.cursor < session.cursors.size)

include sound hasCursor

theorem Sound.blames_of_benign {fault : Fault}
    (benign : fault.Benign (session.view stack).source.mode) : operation.Blames origin fault := by
  rw [sound.mode_eq hasCursor] at benign
  exact .inl benign

/-- Returning to an offset through the layers of a handle. -/
theorem Sound.restore_effect {target : Target} {scan : Scan Reply}
    (found : session.scanOf (session.view stack) (.restore target) = some scan) :
    Change (.cursor stack) (.restore target) session
        (session.moveTo stack (scan (session.position stack)).2) ∧
      ∀ fault, (scan (session.position stack)).1 = .error fault →
        (Operation.restore target).Blames origin fault := by
  have admits := sound.admits hasCursor
  have stays : Change (.cursor stack) (.restore target) session
      (session.moveTo stack (session.position stack)) := Change.forward admits.fromSelf
  obtain ⟨offset, rfl, given⟩ := exists_of_scanOf_restore found
  rcases View.restore_cases admits.toWellFormed offset (session.position stack) with
    ⟨place, -, placed, answer⟩ | ⟨fault, benign, refusal⟩ | ⟨place, rfl, inside, refusal⟩
  · rw [Scan.bind_of_ok answer]
    exact ⟨.move placed.1 (.inr ⟨rfl, ⟨target, rfl⟩, placed⟩), nofun⟩
  · rw [Scan.bind_of_error refusal]
    refine ⟨stays, ?_⟩
    rintro other ⟨⟩
    exact sound.blames_of_benign hasCursor benign
  · rw [Scan.bind_of_error refusal]
    refine ⟨stays, ?_⟩
    rintro other ⟨⟩
    rw [sound.boundary_iff hasCursor] at inside
    refine .inr ⟨place, rfl, inside, ?_⟩
    rcases given with isGiven | ⟨mark, isMark, isPlace⟩
    · exact .inl (by rw [isGiven])
    · -- A mark was a position once, so it is no place inside a scalar.
      exact absurd (sound.marks mark isMark) (Int.ofNat.inj isPlace ▸ inside)

theorem Sound.scanOf_effect {scan : Scan Reply}
    (found : session.scanOf (session.view stack) operation = some scan) :
    Change (.cursor stack) operation session
        (session.moveTo stack (scan (session.position stack)).2) ∧
      ∀ fault, (scan (session.position stack)).1 = .error fault →
        operation.Blames origin fault := by
  by_cases isRestore : ∃ target, operation = .restore target
  · obtain ⟨target, rfl⟩ := isRestore
    exact sound.restore_effect hasCursor found
  · obtain ⟨moved, benign⟩ := session.scanOf_keeps (sound.anchored hasCursor)
      (fun target isTarget => isRestore ⟨target, isTarget⟩) found _
      (sound.admits hasCursor).fromSelf
    exact ⟨Change.forward moved, fun fault refused =>
      sound.blames_of_benign hasCursor (benign fault refused)⟩

theorem Sound.bounded_effect (first last : Int) :
    Effect origin session (.cursor stack) (.bounded first last)
      (session.addChecked stack ((session.view stack).bounded first last)
        session.addSegment) := by
  have wellFormed := (sound.admits hasCursor).toWellFormed
  rcases View.bounded_cases wellFormed first last with
    ⟨start, stop, partWellFormed, answer⟩ | ⟨fault, benign, refusal⟩ |
      ⟨place, isEnd, inside, refusal⟩
  · rw [answer]
    refine addChecked_effect nofun ?_
    rintro segment ⟨⟩
    exact .segment partWellFormed rfl rfl
  · rw [refusal]
    refine addChecked_effect ?_ nofun
    rintro other ⟨⟩
    exact sound.blames_of_benign hasCursor benign
  · rw [refusal]
    refine addChecked_effect ?_ nofun
    rintro other ⟨⟩
    rw [sound.boundary_iff hasCursor] at inside
    exact .inr ⟨place, rfl, inside, .inr ⟨first, last, rfl, isEnd⟩⟩

theorem Sound.stepCursor_effect (operation : Operation) :
    Effect origin session (.cursor stack) operation (session.stepCursor stack operation) := by
  have blames {fault : Fault} (benign : fault.Benign (session.view stack).source.mode) :
      operation.Blames origin fault := sound.blames_of_benign hasCursor benign
  unfold stepCursor
  dsimp only
  cases found : session.scanOf (session.view stack) operation with
  | some scan =>
      obtain ⟨moves, blames⟩ := sound.scanOf_effect hasCursor found
      exact ⟨.single moves, fun fault refused => blames fault (eq_error_of_answerOf refused)⟩
  | none =>
      cases operation with
      | checkpoint => exact Changes.replies (.single .mark)
      | record => exact Changes.replies (.single .recorder)
      | rebase =>
          dsimp only
          split
          · next outermost => exact Changes.replies (.single (.rebase rfl rfl outermost))
          · exact .unsupported rfl
      | splitOn delimiter =>
          exact addChecked_effect (fun _ refused => blames (Pattern.benign_of_test? refused))
            fun _ _ => .handle ⟨rfl, fun _ member => member, nofun⟩
      | ignore given =>
          exact addChecked_effect (fun _ refused => blames (Mode.benign_of_unit? refused))
            fun unit _ => .handle (derives_of_layer stack (.ignoring unit) nofun)
      | stop =>
          have adds : Change (.cursor stack) .stop session (session.addHandle
              (.cursor ⟨stack.cursor, .stopped :: stack.layers⟩)).1 :=
            .handle (derives_of_layer stack .stopped nofun)
          exact Changes.replies (.single adds)
      | bounded first last => exact sound.bounded_effect hasCursor first last
      | whileClass pattern =>
          have adds : Change (.cursor stack) (.whileClass pattern) session
              (session.addHandle (.run stack pattern)).1 :=
            .handle ⟨rfl, fun _ member => member, nofun⟩
          exact Changes.replies (.single adds)
      | whileUnit pattern =>
          exact addChecked_effect (fun _ refused => blames (Pattern.benign_of_test? refused))
            fun _ _ => .handle ⟨rfl, fun _ member => member, nofun⟩
      | _ => exact .unsupported rfl

theorem Sound.stepRun_effect (pattern : Pattern) (operation : Operation) :
    Effect origin session (.run stack pattern) operation
      (session.stepRun stack pattern operation) := by
  have runs {scan : Scan Reply}
      (keeps : Keeps (session.view stack).source (session.position stack) scan) :
      Effect origin session (.run stack pattern) operation
        ((session.runScan stack scan).1.plainOutcome stack
          (answerOf (session.runScan stack scan).2)) := by
    obtain ⟨moved, benign⟩ := keeps _ (sound.admits hasCursor).fromSelf
    refine Changes.effect (.single (Change.forward moved)) fun fault refused => ?_
    exact sound.blames_of_benign hasCursor (benign fault (eq_error_of_answerOf refused))
  cases operation with
  | consume => exact runs (((session.view stack).countRun_keeps pattern).map _)
  | consumeAtLeast needed =>
      exact runs (((session.view stack).countAtLeast_keeps pattern needed).map _)
  | _ => exact .unsupported rfl

theorem Sound.sweepOutcome_effect {index : Nat} {delimiter : Pattern} {exhausted : Bool}
    (task : SegmentTask) (finished : Reply) (seen : Option (List Reply)) :
    Effect origin session (.splitter stack delimiter exhausted) operation
      (session.sweepOutcome index stack task
        ((session.view stack).sweep delimiter task.visit ⟨session.position stack, exhausted⟩)
        finished seen) := by
  obtain ⟨movedAdmits, benign⟩ := View.sweep_keeps delimiter task.visit
    (fun start stop => task.visit_keeps ((session.view stack).part_anchored start stop))
    ⟨session.position stack, exhausted⟩ (sound.admits hasCursor).fromSelf
  refine ⟨settle_changes index movedAdmits, fun fault refused => ?_⟩
  simp only [sweepOutcome] at refused
  split at refused
  · cases refused
  · next cause isFault =>
      cases refused
      exact sound.blames_of_benign hasCursor (benign fault isFault)

theorem Sound.stepSplitter_effect (index : Nat) (delimiter : Pattern) (exhausted : Bool)
    (operation : Operation) :
    Effect origin session (.splitter stack delimiter exhausted) operation
      (session.stepSplitter index stack delimiter exhausted operation) := by
  cases operation with
  | next =>
      obtain ⟨moved, movedAdmits,
          ⟨start, stop, wellFormed, answer⟩ | ⟨fault, benign, refusal⟩⟩ :=
        View.nextSegment_cases delimiter ⟨session.position stack, exhausted⟩
          (sound.admits hasCursor).fromSelf
      · have settled : Changes (.splitter stack delimiter exhausted) .next session
            (session.settle index stack moved) := settle_changes index movedAdmits
        have sameSource := (settled.onward sound hasCursor).sources.source_eq hasCursor
        simp only [stepSplitter, answer]
        refine ⟨settled.tail (.segment wellFormed ?_ ?_), nofun⟩
        · exact (congrArg Source.mode sameSource).symm
        · exact (congrArg Source.bytes sameSource).symm
      · simp only [stepSplitter, refusal]
        refine ⟨settle_changes index movedAdmits, ?_⟩
        rintro other ⟨⟩
        exact sound.blames_of_benign hasCursor benign
  | mapSegments task => exact sound.sweepOutcome_effect hasCursor task _ none
  | forEachSegment task => exact sound.sweepOutcome_effect hasCursor task .self _
  | _ => exact .unsupported rfl

end Steps

/-- A step of an operation that only moves the cursor runs its scan. -/
theorem step_of_scanOf {index : Nat} {scan : Scan Reply}
    (isHandle : session.handles[index]? = some (.cursor stack))
    (isScan : session.scanOf (session.view stack) operation = some scan) :
    ∃ outcome, session.step index operation =
        some (session.moveTo stack (scan (session.position stack)).2, outcome) ∧
      outcome.answer = answerOf (scan (session.position stack)).1 := by
  simp only [step, isHandle, Option.map_some, stepCursor, isScan, runScan]
  exact ⟨_, rfl, rfl⟩

/-- What a step does: changes by way of its handle, and it blames nothing but its own offset. -/
theorem Sound.step_effect (sound : session.Sound origin) {index : Nat} {operation : Operation}
    {result : Session × Outcome} (taken : session.step index operation = some result) :
    ∃ handle, session.handles[index]? = some handle ∧
      handle.stack.cursor < session.cursors.size ∧
      Effect origin session handle operation result := by
  obtain ⟨handle, found, rfl⟩ := Option.map_eq_some_iff.mp taken
  have hasCursor := sound.handles handle (Array.mem_of_getElem? found)
  refine ⟨handle, found, hasCursor, ?_⟩
  cases handle with
  | cursor stack => exact sound.stepCursor_effect hasCursor operation
  | splitter parent delimiter exhausted =>
      exact sound.stepSplitter_effect hasCursor index delimiter exhausted operation
  | run stack pattern => exact sound.stepRun_effect hasCursor pattern operation

/-- An operation leads onward, and blames nothing but its own offset. -/
structure Proceeds (origin : Source) (session : Session) (operation : Operation)
    (result : Session × Outcome) : Prop where
  onward : Onward origin session result.1
  blames : ∀ fault, result.2.answer = .refused fault → operation.Blames origin fault

/-- A step is sound, keeps all sources, and blames nothing but its own offset. -/
theorem Sound.step_proceeds (sound : session.Sound origin) {index : Nat} {operation : Operation}
    {result : Session × Outcome} (taken : session.step index operation = some result) :
    Proceeds origin session operation result := by
  obtain ⟨handle, -, hasCursor, effect⟩ := sound.step_effect taken
  exact ⟨effect.changes.onward sound hasCursor, effect.blames⟩

/-! ## Runs -/

/-- The session after operations on handles, one after another. Where there is no such handle
nothing happens. -/
def after (session : Session) : List (Nat × Operation) → Session
  | [] => session
  | (index, operation) :: steps =>
      match session.step index operation with
      | some (next, _) => next.after steps
      | none => session.after steps

theorem Sound.after_onward (sound : session.Sound origin) (steps : List (Nat × Operation)) :
    Onward origin session (session.after steps) := by
  induction steps generalizing session with
  | nil => exact sound.onward
  | cons step steps inductionHypothesis =>
      obtain ⟨index, operation⟩ := step
      rw [after]
      cases taken : session.step index operation with
      | none => exact inductionHypothesis sound
      | some result =>
          have proceeds := sound.step_proceeds taken
          exact proceeds.onward.trans (inductionHypothesis proceeds.onward.sound)

/-- Over every accepted buffer and after every run of steps, refused ones included, each cursor
stands inside unchanging bounds of that buffer, in a text between scalars, and each handle has such
a cursor. No step runs out of the buffer, and in a text none finds fault with the encoding, save for
an offset inside a scalar that its caller gives. -/
theorem runs_stay_in_bounds {mode : Mode} {input : Source.Input} {source : Source}
    (codePoints : ∀ text, input = .text text → ∀ code ∈ text, code ≤ Code.greatest)
    (accepted : Source.ofInput mode input = .ok source) (steps : List (Nat × Operation)) :
    let session := (start source).after steps
    (∀ cursor ∈ session.cursors,
      cursor.source.bytes = source.bytes ∧ cursor.source.mode = mode ∧
      cursor.source.start ≤ cursor.position ∧ cursor.position ≤ cursor.source.stop ∧
      cursor.source.stop ≤ source.bytes.size ∧
      (mode = .text → ∀ place ∈ [cursor.source.start, cursor.position, cursor.source.stop],
        Utf8.ScalarBoundary source.bytes.toList place)) ∧
    (∀ handle ∈ session.handles, handle.stack.cursor < session.cursors.size) ∧
    (∀ later, session.SourcesKept (session.after later)) ∧
    ∀ index operation next outcome fault,
      session.step index operation = some (next, outcome) → outcome.answer = .refused fault →
      fault ≠ .indexRange ∧
      (mode = .text → ∀ offset reason, fault = .utf8 offset reason →
        reason = .insideSequence ∧ ∃ place : Nat, offset = place ∧
          ¬ Utf8.ScalarBoundary source.bytes.toList place ∧
          (operation = .restore (.position place) ∨
            ∃ first last, operation = .bounded first last ∧ (first = place ∨ last = place))) := by
  intro session
  obtain rfl := Source.mode_ofInput accepted
  have sound : session.Sound source :=
    ((start_sound (Source.wellFormed_ofInput codePoints accepted)).after_onward steps).sound
  refine ⟨fun cursor member => ?_, sound.handles,
    fun later => (sound.after_onward later).sources, ?_⟩
  · have cursorSound := sound.cursors cursor member
    have admits := cursorSound.admits
    refine ⟨cursorSound.bytes_eq, cursorSound.mode_eq, admits.start_le, admits.le_stop,
      cursorSound.bytes_eq ▸ admits.stop_le_size, fun isText place isPlace => ?_⟩
    apply cursorSound.boundary_iff.mp _ isText
    simp only [List.mem_cons, List.not_mem_nil, or_false] at isPlace
    rcases isPlace with rfl | rfl | rfl
    · exact admits.start_boundary
    · exact admits.boundary
    · exact admits.stop_boundary
  · intro index operation next outcome fault taken refused
    rcases (sound.step_proceeds taken).blames fault refused with
      benign | ⟨place, rfl, inside, given⟩
    · refine ⟨fun isFault => ?_, fun isText offset reason isFault => ?_⟩
      · subst isFault
        exact benign
      · subst isFault
        exact absurd (isText.symm.trans benign) (by decide)
    · refine ⟨by simp, fun isText offset reason isFault => ?_⟩
      cases isFault
      exact ⟨rfl, place, rfl, fun boundary => inside fun _ => boundary, given⟩

/-- A segment before a comma holds one scalar of two bytes. It is read to the end, and a return
between the two bytes is refused. -/
theorem runs_stay_in_bounds_two_byte_segment :
    let source : Source := ⟨.text, #[0xC3, 0xA9, 0x2C, 0x62], 0, 4⟩
    let steps : List (Nat × Operation) :=
      [(0, .splitOn (.literal (.text [0x2C]))), (1, .next), (2, .advance)]
    Source.ofInput .text (.text [0xE9, 0x2C, 0x62]) = .ok source ∧
      ((start source).after steps).cursors = #[⟨source, 3⟩, ⟨source.narrowed 0 2, 2⟩] ∧
      Utf8.ScalarBoundary source.bytes.toList 2 ∧
      ¬ Utf8.ScalarBoundary source.bytes.toList 1 := by
  intro source steps
  have accepted : Source.ofInput .text (.text [0xE9, 0x2C, 0x62]) = .ok source := rfl
  have cursors : ((start source).after steps).cursors =
      #[⟨source, 3⟩, ⟨source.narrowed 0 2, 2⟩] := by
    decide +kernel
  have returned : (((start source).after steps).step 2 (.restore (.position 1))).map
      (·.2.answer) = some (.refused (.utf8 1 .insideSequence)) := by
    unfold source steps
    rfl
  obtain ⟨bounds, -, -, refusals⟩ :=
    runs_stay_in_bounds (by rintro text ⟨⟩; decide) accepted steps
  refine ⟨accepted, cursors, ?_, ?_⟩
  · have second : (⟨source.narrowed 0 2, 2⟩ : Cursor) ∈ ((start source).after steps).cursors := by
      rw [cursors]
      simp
    obtain ⟨-, -, -, -, -, boundaries⟩ := bounds _ second
    exact boundaries rfl 2 (by simp)
  · obtain ⟨⟨next, outcome⟩, taken, refused⟩ := Option.map_eq_some_iff.mp returned
    obtain ⟨-, inside⟩ := refusals 2 _ next outcome _ taken refused
    obtain ⟨-, place, isPlace, notBoundary, -⟩ := inside rfl 1 .insideSequence rfl
    rwa [← Int.ofNat.inj isPlace] at notBoundary

end Session

end RecordScan
