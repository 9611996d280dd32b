import RecordScan.Proofs.Session.Looking

/-!
Contract: a step as a deed that is carried out.

Owns: the deed of a step (`Session.Deed`), which is all that the step does; carrying
out a deed (`Session.enact`); that a step carries out its deed
(`Session.step_eq_enact`); and other numbers for handles and for what a deed names.

A deed names no new number: the numbers of a new cursor, recorder, handle or mark are
given when it is carried out. This is what lets one deed be carried out in two
sessions that number their things differently.
-/

namespace RecordScan

/-! ## Other numbers for handles -/

def LayerRef.renumber (recorders : Nat → Nat) : LayerRef → LayerRef
  | .recorder index => .recorder (recorders index)
  | layer => layer

def Stack.renumber (cursors recorders : Nat → Nat) (stack : Stack) : Stack :=
  ⟨cursors stack.cursor, stack.layers.map (LayerRef.renumber recorders)⟩

def Handle.renumber (cursors recorders : Nat → Nat) : Handle → Handle
  | .cursor stack => .cursor (stack.renumber cursors recorders)
  | .splitter parent delimiter exhausted =>
      .splitter (parent.renumber cursors recorders) delimiter exhausted
  | .run stack pattern => .run (stack.renumber cursors recorders) pattern

section Renumber

variable {cursors recorders : Nat → Nat}

theorem Handle.stack_renumber (handle : Handle) :
    (handle.renumber cursors recorders).stack = handle.stack.renumber cursors recorders := by
  cases handle <;> rfl

theorem LayerRef.renumber_eq_self {layers : List LayerRef}
    (fixed : ∀ recorder, .recorder recorder ∈ layers → recorders recorder = recorder) :
    layers.map (LayerRef.renumber recorders) = layers := by
  calc
    layers.map (LayerRef.renumber recorders) = layers.map id := by
      apply List.map_congr_left
      intro layer member
      cases layer with
      | recorder recorder => exact congrArg LayerRef.recorder (fixed recorder member)
      | ignoring unit => rfl
      | stopped => rfl
    _ = layers := List.map_id layers

theorem Stack.renumber_eq_self {stack : Stack} (cursor : cursors stack.cursor = stack.cursor)
    (fixed : ∀ recorder, .recorder recorder ∈ stack.layers → recorders recorder = recorder) :
    stack.renumber cursors recorders = stack := by
  rw [Stack.renumber, cursor, LayerRef.renumber_eq_self fixed]

theorem Stack.renumber_id (stack : Stack) : stack.renumber id id = stack :=
  renumber_eq_self rfl fun _ _ => rfl

theorem Handle.renumber_eq_self {handle : Handle}
    (cursor : cursors handle.stack.cursor = handle.stack.cursor)
    (fixed : ∀ recorder, .recorder recorder ∈ handle.stack.layers →
      recorders recorder = recorder) :
    handle.renumber cursors recorders = handle := by
  have stackFixed := Stack.renumber_eq_self cursor fixed
  cases handle with
  | cursor stack => exact congrArg Handle.cursor stackFixed
  | splitter parent delimiter exhausted =>
      exact congrArg (Handle.splitter · delimiter exhausted) stackFixed
  | run stack pattern => exact congrArg (Handle.run · pattern) stackFixed

theorem Handle.renumber_id (handle : Handle) : handle.renumber id id = handle :=
  renumber_eq_self rfl fun _ _ => rfl

end Renumber

/-- Of a splitter, whether it is exhausted. -/
def Handle.exhausted? : Handle → Option Bool
  | .splitter _ _ exhausted => some exhausted
  | _ => none

theorem Handle.exhausted?_renumber (handle : Handle) (cursors recorders : Nat → Nat) :
    (handle.renumber cursors recorders).exhausted? = handle.exhausted? := by
  cases handle <;> rfl

namespace Session

variable {session : Session}

/-! ## Deeds -/

/-- What a step leaves besides a moved cursor. -/
inductive Product where
  /-- Nothing but an answer. -/
  | answer (given : Answer)
  | mark
  | recorder
  | rebase (recorder : Nat)
  /-- A handle over the same cursor. -/
  | handle (made : Handle)
  /-- A handle over a new cursor. -/
  | segment (part : View)

/-- All that a step does. -/
structure Deed where
  /-- Where the cursor beneath the handle stands afterwards. -/
  position : Nat
  /-- Whether the handle, if it is a splitter, is exhausted afterwards. -/
  exhausted : Bool
  product : Product
  seen : Option (List Reply)
  events : List Event

namespace Deed

/-- Runs a scan. -/
def ofScan (result : Except Fault Reply × Nat) (events : List Event) : Deed :=
  ⟨result.2, false, .answer (answerOf result.1), none, events⟩

/-- Stays in place. -/
def still (here : Nat) (product : Product) : Deed :=
  ⟨here, false, product, none, []⟩

/-- Stays in place, and makes something of a value if the value passes its check. -/
def ofChecked {α : Type} (here : Nat) (checked : Except Fault α) (make : α → Product) : Deed :=
  match checked with
  | .ok value => still here (make value)
  | .error fault => still here (.answer (.refused fault))

/-- The deed of an operation on a cursor; `scan?` is the scan it stands for, if any. -/
def ofCursor (stack : Stack) (view : View) (here : Nat) (scan? : Option (Scan Reply))
    (operation : Operation) : Deed :=
  match scan? with
  | some scan => ofScan (scan here) (eventsOf operation (scan here).1)
  | none =>
      match operation with
      | .checkpoint => still here .mark
      | .record => still here .recorder
      | .rebase =>
          match stack.layers with
          | .recorder index :: _ => still here (.rebase index)
          | _ => still here (.answer .unsupported)
      | .splitOn delimiter =>
          ofChecked here (delimiter.test? view.mode) fun _ =>
            .handle (.splitter stack delimiter false)
      | .ignore given =>
          ofChecked here (view.mode.unit? given) fun unit =>
            .handle (.cursor ⟨stack.cursor, .ignoring unit :: stack.layers⟩)
      | .stop => still here (.handle (.cursor ⟨stack.cursor, .stopped :: stack.layers⟩))
      | .bounded first last => ofChecked here (view.bounded first last) .segment
      | .whileClass pattern => still here (.handle (.run stack pattern))
      | .whileUnit pattern =>
          ofChecked here (pattern.test? view.mode) fun _ => .handle (.run stack pattern)
      | _ => still here (.answer .unsupported)

def ofRun (view : View) (here : Nat) (pattern : Pattern) : Operation → Deed
  | .consume =>
      ofScan ((do return Reply.count (← view.countRun pattern) : Scan Reply) here) []
  | .consumeAtLeast needed =>
      ofScan ((do return Reply.count (← view.countAtLeast pattern needed) : Scan Reply) here) []
  | _ => still here (.answer .unsupported)

def ofSweep (task : SegmentTask) (sweep : View.Sweep Reply) (finished : Reply)
    (seen : Option (List Reply)) : Deed :=
  let answer :=
    match sweep.fault with
    | none => Answer.reply finished
    | some fault => .refused fault
  ⟨sweep.progress.position, sweep.progress.exhausted, .answer answer, seen,
    task.events sweep.fault⟩

def ofSplitter (view : View) (here : Nat) (delimiter : Pattern) (exhausted : Bool) :
    Operation → Deed
  | .next =>
      let (result, progress) := view.nextSegment delimiter ⟨here, exhausted⟩
      let product :=
        match result with
        | .error fault => Product.answer (.refused fault)
        | .ok part => .segment part
      ⟨progress.position, progress.exhausted, product, none, []⟩
  | .mapSegments task =>
      let sweep := view.sweep delimiter task.visit ⟨here, exhausted⟩
      ofSweep task sweep (.list sweep.results) none
  | .forEachSegment task =>
      let sweep := view.sweep delimiter task.visit ⟨here, exhausted⟩
      ofSweep task sweep .self (some sweep.results)
  | _ => ⟨here, exhausted, .answer .unsupported, none, []⟩

end Deed

/-- What an operation does by way of a handle. -/
def deed (session : Session) (handle : Handle) (operation : Operation) : Deed :=
  let view := session.view handle.stack
  let here := session.position handle.stack
  match handle with
  | .cursor stack => .ofCursor stack view here (session.scanOf view operation) operation
  | .splitter _ delimiter exhausted => .ofSplitter view here delimiter exhausted operation
  | .run _ pattern => .ofRun view here pattern operation

def Product.renumber (cursors recorders : Nat → Nat) : Product → Product
  | .rebase moved => .rebase (recorders moved)
  | .handle made => .handle (made.renumber cursors recorders)
  | product => product

def Deed.renumber (cursors recorders : Nat → Nat) (deed : Deed) : Deed :=
  { deed with product := deed.product.renumber cursors recorders }

theorem Deed.renumber_id (deed : Deed) : deed.renumber id id = deed := by
  obtain ⟨position, exhausted, product, seen, events⟩ := deed
  cases product with
  | handle made => simp only [renumber, Product.renumber, Handle.renumber_id]
  | _ => rfl

/-! ## Carrying out a deed -/

namespace Product

/-- The cursor that is made. -/
@[simp] def cursor? : Product → Option Cursor
  | .segment part => some ⟨part.source, part.source.start⟩
  | _ => none

/-- Where a recorder that is made starts. -/
@[simp] def recorder? (here : Nat) : Product → Option Nat
  | .recorder => some here
  | _ => none

/-- The recorder that is moved. -/
@[simp] def rebased? : Product → Option Nat
  | .rebase moved => some moved
  | _ => none

/-- The position of a mark that is made. -/
@[simp] def mark? (here : Nat) : Product → Option Nat
  | .mark => some here
  | _ => none

/-- The layers of a view of narrower bounds, which are ignoring ones. -/
def layersOf (part : View) : List LayerRef :=
  part.layers.filterMap fun
    | .ignoring unit => some (LayerRef.ignoring unit)
    | .recording _ | .stopped => none

/-- The handle that is made, by the numbers of the next cursor and the next recorder. -/
@[simp] def handle? (stack : Stack) (cursor recorder : Nat) : Product → Option Handle
  | .recorder => some (.cursor ⟨stack.cursor, .recorder recorder :: stack.layers⟩)
  | .handle made => some made
  | .segment part => some (.cursor ⟨cursor, layersOf part⟩)
  | _ => none

/-- Whether a handle is made. -/
def makesHandle : Product → Bool
  | .recorder | .handle _ | .segment _ => true
  | _ => false

theorem isSome_handle? (product : Product) (stack : Stack) (cursor recorder : Nat) :
    (product.handle? stack cursor recorder).isSome = product.makesHandle := by
  cases product <;> rfl

theorem recorder_notMem_layersOf (part : View) (recorder : Nat) :
    .recorder recorder ∉ layersOf part := by
  intro member
  obtain ⟨layer, -, isLayer⟩ := List.mem_filterMap.mp member
  cases layer <;> cases isLayer

theorem layersOf_renumber (part : View) (recorders : Nat → Nat) :
    (layersOf part).map (LayerRef.renumber recorders) = layersOf part :=
  LayerRef.renumber_eq_self fun recorder member =>
    absurd member (recorder_notMem_layersOf part recorder)

/-- With other numbers, a deed makes the same handle with other numbers. -/
theorem handle?_renumber (product : Product) (stack : Stack) (here : Nat)
    {cursors recorders : Nat → Nat} {nextCursor nextRecorder otherCursor otherRecorder : Nat}
    (cursorNumber : product.cursor?.isSome = true → cursors nextCursor = otherCursor)
    (recorderNumber : (product.recorder? here).isSome = true →
      recorders nextRecorder = otherRecorder) :
    (product.renumber cursors recorders).handle? (stack.renumber cursors recorders)
        otherCursor otherRecorder =
      (product.handle? stack nextCursor nextRecorder).map (Handle.renumber cursors recorders) := by
  cases product with
  | recorder =>
      simp only [renumber, handle?, Option.map_some, Handle.renumber, Stack.renumber,
        List.map_cons, LayerRef.renumber, recorderNumber rfl]
  | segment part =>
      simp only [renumber, handle?, Option.map_some, Handle.renumber, Stack.renumber,
        layersOf_renumber, cursorNumber rfl]
  | _ => rfl

/-- What is answered, by the numbers of the next handle and the next mark. -/
@[simp] def answerAt (handle mark here : Nat) : Product → Answer
  | .answer given => given
  | .mark => .reply (.mark mark here)
  | .rebase _ => .reply .self
  | .recorder | .handle _ | .segment _ => .reply (.handle handle)

end Product

/-- Recorders, of which one may be moved. -/
def restart (recorders : Array Nat) (here : Nat) : Option Nat → Array Nat
  | some recorder => recorders.modify recorder fun _ => here
  | none => recorders

/-- Adds what a step makes. -/
def produce (session : Session) (stack : Stack) (here : Nat) (product : Product) : Session where
  cursors := session.cursors ++ product.cursor?.toArray
  recorders := restart session.recorders here product.rebased? ++ (product.recorder? here).toArray
  handles := session.handles ++
    (product.handle? stack session.cursors.size session.recorders.size).toArray
  marks := session.marks ++ (product.mark? here).toArray

/-- Carries out a deed by way of the handle at an index. -/
def enact (session : Session) (index : Nat) (handle : Handle) (deed : Deed) : Session × Outcome :=
  ((session.settle index handle.stack ⟨deed.position, deed.exhausted⟩).produce handle.stack
      deed.position deed.product,
    ⟨deed.product.answerAt session.handles.size session.marks.size deed.position, deed.position,
      handle.exhausted?.map fun _ => deed.exhausted, deed.seen, deed.events⟩)

section Enact

variable {handle : Handle} {stack : Stack} {index here : Nat} {deed : Deed}

/-! ### What is produced -/

theorem produce_answer (given : Answer) :
    session.produce stack here (.answer given) = session := by
  simp [produce, restart]

theorem produce_mark : session.produce stack here .mark =
    { session with marks := session.marks.push here } := by
  simp [produce, restart]

theorem produce_recorder : session.produce stack (session.position stack) .recorder =
    (session.addRecorder stack).1 := by
  simp [produce, restart, addRecorder, addHandle]

theorem produce_rebase (recorder : Nat) :
    session.produce stack (session.position stack) (.rebase recorder) =
      session.rebase stack recorder := by
  simp [produce, restart, rebase]

theorem produce_handle (made : Handle) :
    session.produce stack here (.handle made) = (session.addHandle made).1 := by
  simp [produce, restart, addHandle]

theorem produce_segment (part : View) :
    session.produce stack here (.segment part) = (session.addSegment part).1 := by
  simp [produce, restart, addSegment, addHandle]
  rfl

theorem position_produce {other : Stack} {product : Product}
    (hasCursor : stack.cursor < session.cursors.size) :
    (session.produce other here product).position stack = session.position stack := by
  simp only [position, produce, Array.getElem?_append_left hasCursor]

/-- Noting for a handle what it says already, or for one that is no splitter, changes nothing. -/
theorem setExhausted_eq_self (isHandle : session.handles[index]? = some handle) {exhausted : Bool}
    (same : ∀ before, handle.exhausted? = some before → before = exhausted) :
    session.setExhausted index exhausted = session := by
  obtain ⟨cursors, recorders, handles, marks⟩ := session
  simp only [setExhausted]
  congr 1
  apply Array.ext_getElem?
  intro other
  rw [Array.getElem?_modify]
  split
  · next isIndex =>
      subst isIndex
      rw [isHandle]
      cases handle with
      | cursor stack => rfl
      | splitter parent delimiter before => rw [same before rfl]; rfl
      | run stack pattern => rfl
  · rfl

theorem settle_eq_self (isHandle : session.handles[index]? = some handle) {exhausted : Bool}
    (same : ∀ before, handle.exhausted? = some before → before = exhausted) :
    session.settle index handle.stack ⟨session.position handle.stack, exhausted⟩ = session := by
  rw [settle, moveTo_position, setExhausted_eq_self isHandle same]

section Steps

variable (isHandle : session.handles[index]? = some handle)
  (hasCursor : handle.stack.cursor < session.cursors.size)

include isHandle hasCursor

/-- A step that moves no cursor and only makes something. -/
theorem plainOutcome_eq_enact (notSplitter : handle.exhausted? = none) {product : Product}
    {next : Session} (made : session.produce handle.stack (session.position handle.stack) product =
      next) :
    next.plainOutcome handle.stack (product.answerAt session.handles.size session.marks.size
        (session.position handle.stack)) =
      session.enact index handle (.still (session.position handle.stack) product) := by
  have settled := @settle_eq_self session handle index isHandle false (by simp [notSplitter])
  simp only [enact, Deed.still, settled, notSplitter, Option.map_none, made]
  rw [plainOutcome, ← made, position_produce hasCursor]

/-- A step that runs a scan. -/
theorem runScan_eq_enact (notSplitter : handle.exhausted? = none) (scan : Scan Reply)
    (events : List Event) :
    let run := session.runScan handle.stack scan
    (run.1, ⟨answerOf run.2, run.1.position handle.stack, none, none, events⟩) =
      session.enact index handle (.ofScan (scan (session.position handle.stack)) events) := by
  intro run
  let moved := session.moveTo handle.stack (scan (session.position handle.stack)).2
  have settled : moved.setExhausted index false = moved :=
    @setExhausted_eq_self moved handle index isHandle false (by simp [notSplitter])
  have isMoved : run.1 = moved := rfl
  simp only [enact, Deed.ofScan, settle, produce_answer, notSplitter, Option.map_none]
  rw [isMoved, settled, position_moveTo hasCursor]
  rfl

end Steps

section Cursors

variable (isHandle : session.handles[index]? = some (.cursor stack))
  (hasCursor : stack.cursor < session.cursors.size)

include isHandle hasCursor

theorem addChecked_eq_enact {α : Type} {checked : Except Fault α} {add : α → Session × Nat}
    {make : α → Product}
    (adds : ∀ value, session.produce stack (session.position stack) (make value) = (add value).1 ∧
      Answer.reply (.handle (add value).2) = (make value).answerAt session.handles.size
        session.marks.size (session.position stack)) :
    session.addChecked stack checked add =
      session.enact index (.cursor stack) (.ofChecked (session.position stack) checked make) := by
  cases checked with
  | error fault =>
      exact plainOutcome_eq_enact isHandle hasCursor rfl (produce_answer (.refused fault))
  | ok value =>
      obtain ⟨isMade, isAnswer⟩ := adds value
      rw [addChecked, added, isAnswer]
      exact plainOutcome_eq_enact isHandle hasCursor rfl isMade

theorem stepCursor_eq_enact (operation : Operation) :
    session.stepCursor stack operation =
      session.enact index (.cursor stack) (session.deed (.cursor stack) operation) := by
  have makes {product : Product} {next : Session}
      (isMade : session.produce stack (session.position stack) product = next) :=
    plainOutcome_eq_enact isHandle hasCursor rfl isMade
  have unsupported : session.plainOutcome stack .unsupported =
      session.enact index (.cursor stack)
        (.still (session.position stack) (.answer .unsupported)) :=
    makes (produce_answer .unsupported)
  unfold stepCursor deed Deed.ofCursor
  dsimp only [Handle.stack]
  cases isScan : session.scanOf (session.view stack) operation with
  | some scan => exact runScan_eq_enact isHandle hasCursor rfl scan _
  | none =>
      cases operation with
      | checkpoint => exact makes produce_mark
      | record => exact makes produce_recorder
      | rebase =>
          obtain ⟨cursor, layers⟩ := stack
          rcases layers with _ | ⟨recorder | _ | _, inner⟩
          · exact unsupported
          · exact makes (produce_rebase recorder)
          · exact unsupported
          · exact unsupported
      | splitOn delimiter =>
          exact addChecked_eq_enact isHandle hasCursor fun _ => ⟨produce_handle _, rfl⟩
      | ignore given =>
          exact addChecked_eq_enact isHandle hasCursor fun _ => ⟨produce_handle _, rfl⟩
      | stop => exact makes (produce_handle _)
      | bounded first last =>
          exact addChecked_eq_enact isHandle hasCursor fun _ => ⟨produce_segment _, rfl⟩
      | whileClass pattern => exact makes (produce_handle _)
      | whileUnit pattern =>
          exact addChecked_eq_enact isHandle hasCursor fun _ => ⟨produce_handle _, rfl⟩
      | _ => exact unsupported

end Cursors

theorem stepRun_eq_enact {pattern : Pattern}
    (isHandle : session.handles[index]? = some (.run stack pattern))
    (hasCursor : stack.cursor < session.cursors.size) (operation : Operation) :
    session.stepRun stack pattern operation =
      session.enact index (.run stack pattern)
        (session.deed (.run stack pattern) operation) := by
  cases operation with
  | consume =>
      exact runScan_eq_enact isHandle hasCursor rfl
        (do return .count (← (session.view stack).countRun pattern)) []
  | consumeAtLeast needed =>
      exact runScan_eq_enact isHandle hasCursor rfl
        (do return .count (← (session.view stack).countAtLeast pattern needed)) []
  | _ => exact plainOutcome_eq_enact isHandle hasCursor rfl (produce_answer .unsupported)

theorem stepSplitter_eq_enact {delimiter : Pattern} {exhausted : Bool}
    (isHandle : session.handles[index]? = some (.splitter stack delimiter exhausted))
    (hasCursor : stack.cursor < session.cursors.size) (operation : Operation) :
    session.stepSplitter index stack delimiter exhausted operation =
      session.enact index (.splitter stack delimiter exhausted)
        (session.deed (.splitter stack delimiter exhausted) operation) := by
  have settled (progress : Progress) :
      (session.settle index stack progress).position stack = progress.position :=
    position_moveTo hasCursor progress.position
  have stillCursor (progress : Progress) :
      stack.cursor < (session.settle index stack progress).cursors.size := by
    simpa [settle, setExhausted, moveTo] using hasCursor
  have swept (task : SegmentTask) (sweep : View.Sweep Reply) (finished : Reply)
      (seen : Option (List Reply)) :
      session.sweepOutcome index stack task sweep finished seen =
        session.enact index (.splitter stack delimiter exhausted)
          (.ofSweep task sweep finished seen) := by
    simp only [sweepOutcome, enact, Deed.ofSweep, produce_answer, settled]
    rfl
  cases operation with
  | next =>
      cases given : (session.view stack).nextSegment delimiter
          ⟨session.position stack, exhausted⟩ with
      | mk result progress =>
          simp only [stepSplitter, deed, Deed.ofSplitter, Handle.stack, given, enact]
          cases result with
          | error fault =>
              simp only [produce_answer, settled]
              rfl
          | ok part =>
              have placed := @position_produce (session.settle index stack progress) stack
                progress.position stack (.segment part) (stillCursor progress)
              have number : ((session.settle index stack progress).addSegment part).2 =
                  session.handles.size := by
                simp [addSegment, addHandle, settle, setExhausted, moveTo]
              simp only [produce_segment, settled] at placed ⊢
              rw [placed, number]
              rfl
  | mapSegments task => exact swept task _ _ none
  | forEachSegment task => exact swept task _ .self _
  | _ =>
      have unchanged := @settle_eq_self session _ index isHandle exhausted (by rintro _ ⟨⟩; rfl)
      simp only [enact, deed, Deed.ofSplitter, produce_answer]
      rw [unchanged]
      rfl

theorem step_eq_enact (isHandle : session.handles[index]? = some handle)
    (hasCursor : handle.stack.cursor < session.cursors.size) (operation : Operation) :
    session.step index operation =
      some (session.enact index handle (session.deed handle operation)) := by
  rw [step, isHandle, Option.map_some]
  cases handle with
  | cursor stack => exact congrArg some (stepCursor_eq_enact isHandle hasCursor operation)
  | splitter parent delimiter exhausted =>
      exact congrArg some (stepSplitter_eq_enact isHandle hasCursor operation)
  | run stack pattern => exact congrArg some (stepRun_eq_enact isHandle hasCursor operation)

end Enact

end Session

end RecordScan
