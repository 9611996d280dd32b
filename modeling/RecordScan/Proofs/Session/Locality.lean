import RecordScan.Proofs.Session.Deed
import RecordScan.Proofs.Session.Recorders

/-!
Contract: what a step reads and what it writes.

Owns: that a deed is decided by the view of the handle, its position and the mark it
names, and by nothing else of the session (`Session.deed_renumber`,
`Session.deed_congr`); what every deed of a handle is like (`Session.Product.Fits`);
that a deed shows the same wherever it is carried out, up to new numbers; and the frame
of a step: the cursors, recorders, handles and marks that carrying out a deed leaves
alone.
-/

namespace RecordScan

/-! ## Replies that name nothing -/

/-- A reply that is neither a new handle nor a mark. Lists of replies hold results of grammars and
of functions on segments, which are neither. -/
def Reply.IsPlain : Reply → Prop
  | .handle _ | .mark .. => False
  | _ => True

/-- A reply with other numbers for handles and marks. -/
def Reply.renumber (handles marks : Nat → Nat) : Reply → Reply
  | .handle index => .handle (handles index)
  | .mark index position => .mark (marks index) position
  | reply => reply

theorem Reply.IsPlain.renumber_eq {reply : Reply} (plain : reply.IsPlain)
    (handles marks : Nat → Nat) : reply.renumber handles marks = reply := by
  cases reply with
  | handle => exact plain.elim
  | mark => exact plain.elim
  | _ => rfl

def Answer.renumber (handles marks : Nat → Nat) : Answer → Answer
  | .reply given => .reply (given.renumber handles marks)
  | answer => answer

def Outcome.renumber (handles marks : Nat → Nat) (outcome : Outcome) : Outcome :=
  { outcome with answer := outcome.answer.renumber handles marks }

/-! ## Scans that name nothing -/

/-- A scan whose answers name nothing. -/
def Scan.AnswersPlainly (scan : Scan Reply) : Prop :=
  ∀ position reply moved, scan position = (.ok reply, moved) → reply.IsPlain

theorem Scan.AnswersPlainly.map {α : Type} {scan : Scan α} {make : α → Reply}
    (plain : ∀ value, (make value).IsPlain) :
    AnswersPlainly (scan >>= fun value => Pure.pure (make value)) := by
  intro position reply last answer
  obtain ⟨value, moved, -, final⟩ := exists_of_bind_eq_ok answer
  cases final
  exact plain value

theorem Scan.AnswersPlainly.pure {reply : Reply} (plain : reply.IsPlain) :
    AnswersPlainly (Pure.pure reply) := by
  rintro position _ moved ⟨rfl, rfl⟩
  exact plain

namespace Session

variable {session : Session} {view : View} {operation : Operation} {scan : Scan Reply}

theorem scanOf_plain (found : session.scanOf view operation = some scan) :
    scan.AnswersPlainly := by
  cases operation with
  | recordStart =>
      simp only [scanOf] at found
      split at found
      · cases found
        exact .pure trivial
      · cases found
  | restore target =>
      obtain ⟨offset, rfl, -⟩ := exists_of_scanOf_restore found
      exact .map fun _ => trivial
  | recordingStart =>
      cases found
      exact .pure (by cases view.recordingStart <;> trivial)
  | boundStart | boundEnd | isText | data =>
      cases found
      exact .pure trivial
  | peek | peekAt _ | advance | nextIf _ | advanceIf _ | peekLength _ | recordedTextIfValid
  | restTextIfValid | number =>
      cases found
      exact .map fun value => by cases value <;> trivial
  | tell | remaining | atEnd | describe | unitOf _ | encodeUnit _ | consumeWhile _
  | consumeClass _ | consumeUnitRun _ | consumeUntil _ | consume | consumeCount
  | consumeLength _ | consumeAtLeast _ | countRun _ | expect _ | expectEnd | recordedBytes
  | recordedText | recordedSpan | restBytes | restText | wholeNumber | keyValue | keyValues _ =>
      cases found
      exact .map fun _ => trivial
  -- The other operations are no scans.
  | _ => cases found

/-! ## What a deed depends on -/

/-- Operations on two sessions that ask for the same: they are the same, save that a mark may have
another number. -/
inductive SameRequest (session next : Session) : Operation → Operation → Prop
  | plain {operation : Operation} (namesNone : ∀ mark, operation ≠ .restore (.mark mark)) :
      SameRequest session next operation operation
  | mark {first second : Nat} (samePlace : next.marks[second]? = session.marks[first]?) :
      SameRequest session next (.restore (.mark first)) (.restore (.mark second))

variable {next : Session} {handle : Handle}

theorem scanOf_congr (namesNone : ∀ mark, operation ≠ .restore (.mark mark)) (view : View) :
    next.scanOf view operation = session.scanOf view operation := by
  cases operation with
  | restore target =>
      cases target with
      | mark mark => exact absurd rfl (namesNone mark)
      | position offset => rfl
  | _ => rfl

section Renumber

variable {cursors recorders : Nat → Nat}

/-- A stack with other numbers shows the same view if its source and its recorders are the same. -/
theorem view_renumber {stack : Stack}
    (sameSource : next.source (stack.renumber cursors recorders) = session.source stack)
    (sameStart : ∀ recorder, .recorder recorder ∈ stack.layers →
      next.layer (.recorder (recorders recorder)) = session.layer (.recorder recorder)) :
    next.view (stack.renumber cursors recorders) = session.view stack := by
  rw [Session.view, Session.view, sameSource, Stack.renumber, List.map_map]
  congr 1
  apply List.map_congr_left
  intro layer member
  cases layer with
  | recorder recorder => exact sameStart recorder member
  | ignoring unit => rfl
  | stopped => rfl

theorem view_congr {stack : Stack} (sameSource : next.source stack = session.source stack)
    (sameStart : ∀ recorder, .recorder recorder ∈ stack.layers →
      next.layer (.recorder recorder) = session.layer (.recorder recorder)) :
    next.view stack = session.view stack := by
  have sameView := @view_renumber session next id id stack (by rw [stack.renumber_id, sameSource])
    sameStart
  rw [stack.renumber_id] at sameView
  exact sameView

theorem Deed.ofChecked_renumber {α : Type} (here : Nat) (checked : Except Fault α)
    {make otherMake : α → Product}
    (made : ∀ value, otherMake value = (make value).renumber cursors recorders) :
    Deed.ofChecked here checked otherMake =
      (Deed.ofChecked here checked make).renumber cursors recorders := by
  cases checked with
  | error fault => rfl
  | ok value => simp only [ofChecked, made]; rfl

theorem Deed.ofCursor_renumber (stack : Stack) (view : View) (here : Nat)
    (scan? : Option (Scan Reply)) (operation : Operation) :
    Deed.ofCursor (stack.renumber cursors recorders) view here scan? operation =
      (Deed.ofCursor stack view here scan? operation).renumber cursors recorders := by
  cases scan? with
  | some scan => rfl
  | none =>
      cases operation with
      | rebase =>
          obtain ⟨cursor, layers⟩ := stack
          rcases layers with _ | ⟨recorder | _ | _, inner⟩
          · rfl
          · rfl
          · rfl
          · rfl
      | splitOn delimiter => exact ofChecked_renumber here _ fun _ => rfl
      | ignore given => exact ofChecked_renumber here _ fun _ => rfl
      | bounded first last => exact ofChecked_renumber here _ fun _ => rfl
      | whileUnit pattern => exact ofChecked_renumber here _ fun _ => rfl
      | _ => rfl

theorem Deed.ofRun_renumber (view : View) (here : Nat) (pattern : Pattern)
    (operation : Operation) :
    (Deed.ofRun view here pattern operation).renumber cursors recorders =
      Deed.ofRun view here pattern operation := by
  cases operation <;> rfl

theorem Deed.ofSplitter_renumber (view : View) (here : Nat) (delimiter : Pattern)
    (exhausted : Bool) (operation : Operation) :
    (Deed.ofSplitter view here delimiter exhausted operation).renumber cursors recorders =
      Deed.ofSplitter view here delimiter exhausted operation := by
  cases operation with
  | next =>
      simp only [ofSplitter]
      cases (view.nextSegment delimiter ⟨here, exhausted⟩).1 with
      | error fault => rfl
      | ok part => rfl
  | _ => rfl

/-- Where a handle with other numbers shows the same view at the same position, the same request
leads to the same deed with other numbers. -/
theorem deed_renumber {first second : Operation}
    (sameView : next.view (handle.stack.renumber cursors recorders) = session.view handle.stack)
    (samePosition : next.position (handle.stack.renumber cursors recorders) =
      session.position handle.stack)
    (sameRequest : SameRequest session next first second) :
    next.deed (handle.renumber cursors recorders) second =
      (session.deed handle first).renumber cursors recorders := by
  have sameDeed (view : View) (here : Nat) (stack : Stack) :
      Deed.ofCursor stack view here (next.scanOf view second) second =
        Deed.ofCursor stack view here (session.scanOf view first) first := by
    cases sameRequest with
    | plain namesNone => rw [scanOf_congr namesNone]
    | @mark firstMark secondMark samePlace =>
        simp only [scanOf, samePlace]
        cases session.marks[firstMark]? with
        | none => rfl
        | some place => rfl
  unfold deed
  rw [handle.stack_renumber, sameView, samePosition]
  cases handle with
  | cursor stack =>
      show Deed.ofCursor (stack.renumber cursors recorders) _ _ _ second = _
      rw [sameDeed, Deed.ofCursor_renumber]
  | splitter parent delimiter exhausted =>
      show Deed.ofSplitter _ _ delimiter exhausted second = _
      rw [Deed.ofSplitter_renumber]
      cases sameRequest <;> rfl
  | run stack pattern =>
      show Deed.ofRun _ _ pattern second = _
      rw [Deed.ofRun_renumber]
      cases sameRequest <;> rfl

/-- Where a handle shows the same view at the same position, the same request leads to the same
deed. -/
theorem deed_congr {first second : Operation}
    (sameView : next.view handle.stack = session.view handle.stack)
    (samePosition : next.position handle.stack = session.position handle.stack)
    (sameRequest : SameRequest session next first second) :
    next.deed handle second = session.deed handle first := by
  have sameStack := handle.stack.renumber_id
  have renumbered := @deed_renumber session next handle id id first second
    (by rw [sameStack, sameView]) (by rw [sameStack, samePosition]) sameRequest
  rw [Handle.renumber_id, Deed.renumber_id] at renumbered
  exact renumbered

end Renumber

/-! ## What deeds are like -/

/-- What an operation on a handle may leave: an answer that names nothing, something new, a handle
with no recorder that the first lacks, or the outermost recorder moved. -/
def Product.Fits (handle : Handle) (operation : Operation) : Product → Prop
  | .answer (.reply reply) => reply.IsPlain
  | .rebase moved => operation = .rebase ∧
      ∃ cursor inner, handle = .cursor ⟨cursor, .recorder moved :: inner⟩
  | .handle made => Derives handle made
  | _ => True

theorem Deed.ofScan_fits (plain : scan.AnswersPlainly) (here : Nat) (events : List Event) :
    (Deed.ofScan (scan here) events).product.Fits handle operation := by
  show Product.Fits handle operation (.answer (answerOf (scan here).1))
  cases answer : (scan here).1 with
  | error fault => trivial
  | ok reply => exact plain here reply _ (Prod.ext answer rfl)

theorem Deed.ofChecked_fits {α : Type} {here : Nat} {checked : Except Fault α}
    {make : α → Product} (fits : ∀ value, (make value).Fits handle operation) :
    (Deed.ofChecked here checked make).product.Fits handle operation := by
  cases checked with
  | error fault => trivial
  | ok value => exact fits value

theorem Deed.ofCursor_fits {stack : Stack} {here : Nat} {scan? : Option (Scan Reply)}
    (plain : ∀ scan, scan? = some scan → scan.AnswersPlainly) (operation : Operation) :
    (Deed.ofCursor stack view here scan? operation).product.Fits (.cursor stack) operation := by
  cases scan? with
  | some scan => exact ofScan_fits (plain scan rfl) here _
  | none =>
      cases operation with
      | rebase =>
          obtain ⟨cursor, layers⟩ := stack
          rcases layers with _ | ⟨recorder | _ | _, inner⟩
          · trivial
          · exact ⟨rfl, cursor, inner, rfl⟩
          · trivial
          · trivial
      | splitOn delimiter =>
          exact ofChecked_fits fun _ => ⟨rfl, fun _ member => member, nofun⟩
      | ignore given =>
          exact ofChecked_fits fun unit => derives_of_layer stack (.ignoring unit) nofun
      | stop => exact derives_of_layer stack .stopped nofun
      | bounded first last => exact ofChecked_fits fun _ => trivial
      | whileClass pattern => exact ⟨rfl, fun _ member => member, nofun⟩
      | whileUnit pattern =>
          exact ofChecked_fits fun _ => ⟨rfl, fun _ member => member, nofun⟩
      | _ => trivial

theorem Deed.ofSweep_fits (task : SegmentTask) (sweep : View.Sweep Reply) (finished : Reply)
    (plain : finished.IsPlain) (seen : Option (List Reply)) :
    (Deed.ofSweep task sweep finished seen).product.Fits handle operation := by
  obtain ⟨results, fault, progress⟩ := sweep
  cases fault with
  | none => exact plain
  | some fault => trivial

theorem deed_fits (session : Session) (handle : Handle) (operation : Operation) :
    (session.deed handle operation).product.Fits handle operation := by
  cases handle with
  | cursor stack => exact Deed.ofCursor_fits (fun _ isScan => scanOf_plain isScan) operation
  | splitter parent delimiter exhausted =>
      cases operation with
      | next =>
          simp only [deed, Deed.ofSplitter]
          split
          · trivial
          · trivial
      | mapSegments task => exact Deed.ofSweep_fits task _ (.list _) trivial none
      | forEachSegment task => exact Deed.ofSweep_fits task _ .self trivial _
      | _ => trivial
  | run stack pattern =>
      have counts (scan : Scan Nat) : Scan.AnswersPlainly (do return .count (← scan)) :=
        .map fun _ => trivial
      cases operation with
      | consume => exact Deed.ofScan_fits (counts _) _ []
      | consumeAtLeast needed => exact Deed.ofScan_fits (counts _) _ []
      | _ => trivial

/-- Only the outermost recorder of a handle is moved, and only on request. -/
theorem Product.Fits.of_rebased? {product : Product} (fits : product.Fits handle operation)
    {recorder : Nat} (rebased : product.rebased? = some recorder) :
    operation = .rebase ∧
      ∃ cursor inner, handle = .cursor ⟨cursor, .recorder recorder :: inner⟩ := by
  cases product with
  | rebase moved =>
      cases rebased
      exact fits
  | _ => cases rebased

/-- The answer to a request has the numbers that are next when it is carried out. -/
theorem Product.Fits.answerAt_eq {product : Product} (fits : product.Fits handle operation)
    (handles marks : Nat → Nat) {here nextHandle nextMark otherHandle otherMark : Nat}
    (handleNumber : product.makesHandle = true → handles nextHandle = otherHandle)
    (markNumber : (product.mark? here).isSome = true → marks nextMark = otherMark) :
    product.answerAt otherHandle otherMark here =
      (product.answerAt nextHandle nextMark here).renumber handles marks := by
  cases product with
  | answer given =>
      cases given with
      | reply reply =>
          have plain : reply.IsPlain := fits
          simp only [answerAt, Answer.renumber, plain.renumber_eq]
      | refused fault => rfl
      | unsupported => rfl
  | mark => simp only [answerAt, Answer.renumber, Reply.renumber, markNumber rfl]
  | rebase moved => rfl
  | recorder => simp only [answerAt, Answer.renumber, Reply.renumber, handleNumber rfl]
  | handle made => simp only [answerAt, Answer.renumber, Reply.renumber, handleNumber rfl]
  | segment part => simp only [answerAt, Answer.renumber, Reply.renumber, handleNumber rfl]

/-- Other numbers for the handle and for what a deed names leave what it shows alone. -/
theorem enact_renumber_outcome (session : Session) (index : Nat) (handle : Handle) (deed : Deed)
    (cursors recorders : Nat → Nat) :
    (session.enact index (handle.renumber cursors recorders)
      (deed.renumber cursors recorders)).2 = (session.enact index handle deed).2 := by
  simp only [enact, handle.exhausted?_renumber]
  obtain ⟨position, exhausted, product, seen, events⟩ := deed
  cases product <;> rfl

/-- One deed shows the same in two sessions, up to the numbers of what it makes. -/
theorem enact_outcome_eq {deed : Deed} (fits : deed.product.Fits handle operation)
    (handles marks : Nat → Nat) {index other : Nat}
    (handleNumber : deed.product.makesHandle = true →
      handles session.handles.size = next.handles.size)
    (markNumber : (deed.product.mark? deed.position).isSome = true →
      marks session.marks.size = next.marks.size) :
    (next.enact other handle deed).2 =
      (session.enact index handle deed).2.renumber handles marks := by
  simp only [enact, Outcome.renumber, fits.answerAt_eq handles marks handleNumber markNumber]

/-! ## What a step leaves alone -/

/-- A handle that notes whether it is exhausted, if it is a splitter. -/
def settled (exhausted : Bool) : Handle → Handle
  | .splitter parent delimiter _ => .splitter parent delimiter exhausted
  | handle => handle

section Frame

variable {stack : Stack} {index : Nat} {deed : Deed}

theorem enact_cursors : (session.enact index handle deed).1.cursors =
    (session.cursors.modify handle.stack.cursor fun cursor =>
      { cursor with position := deed.position }) ++ deed.product.cursor?.toArray :=
  rfl

theorem enact_recorders : (session.enact index handle deed).1.recorders =
    restart session.recorders deed.position deed.product.rebased? ++
      (deed.product.recorder? deed.position).toArray :=
  rfl

theorem enact_handles : (session.enact index handle deed).1.handles =
    session.handles.modify index (settled deed.exhausted) ++
      (deed.product.handle? handle.stack session.cursors.size session.recorders.size).toArray := by
  simp [enact, produce, settle, setExhausted, moveTo]
  rfl

theorem enact_marks : (session.enact index handle deed).1.marks =
    session.marks ++ (deed.product.mark? deed.position).toArray :=
  rfl

/-! ### Sizes -/

theorem size_toArray {α : Type} (found : Option α) : found.toArray.size = found.isSome.toNat := by
  cases found with
  | none => rfl
  | some item => rfl

theorem size_restart (recorders : Array Nat) (here : Nat) (rebased : Option Nat) :
    (restart recorders here rebased).size = recorders.size := by
  cases rebased with
  | none => rfl
  | some recorder => exact Array.size_modify

theorem size_enact_cursors : (session.enact index handle deed).1.cursors.size =
    session.cursors.size + deed.product.cursor?.isSome.toNat := by
  rw [enact_cursors, Array.size_append, Array.size_modify, size_toArray]

theorem size_enact_recorders : (session.enact index handle deed).1.recorders.size =
    session.recorders.size + (deed.product.recorder? deed.position).isSome.toNat := by
  rw [enact_recorders, Array.size_append, size_restart, size_toArray]

theorem size_enact_handles : (session.enact index handle deed).1.handles.size =
    session.handles.size + deed.product.makesHandle.toNat := by
  rw [enact_handles, Array.size_append, Array.size_modify, size_toArray, Product.isSome_handle?]

theorem size_enact_marks : (session.enact index handle deed).1.marks.size =
    session.marks.size + (deed.product.mark? deed.position).isSome.toNat := by
  rw [enact_marks, Array.size_append, size_toArray]

/-! ### Look-ups -/

theorem getElem?_append_of_some {α : Type} {items : Array α} {item : α} {place : Nat}
    (found : items[place]? = some item) (more : Array α) :
    (items ++ more)[place]? = some item := by
  obtain ⟨inside, -⟩ := Array.getElem?_eq_some_iff.mp found
  rw [Array.getElem?_append_left inside, found]

theorem enact_cursor_kept {other : Nat} {cursor : Cursor}
    (elsewhere : other ≠ handle.stack.cursor) (found : session.cursors[other]? = some cursor) :
    (session.enact index handle deed).1.cursors[other]? = some cursor := by
  rw [enact_cursors]
  apply getElem?_append_of_some
  rw [Array.getElem?_modify, if_neg (Ne.symm elsewhere), found]

theorem enact_recorder_kept {recorder place : Nat}
    (spared : deed.product.rebased? ≠ some recorder)
    (found : session.recorders[recorder]? = some place) :
    (session.enact index handle deed).1.recorders[recorder]? = some place := by
  rw [enact_recorders]
  apply getElem?_append_of_some
  cases rebased : deed.product.rebased? with
  | none => exact found
  | some moved =>
      rw [rebased, ne_eq, Option.some.injEq] at spared
      rw [restart, Array.getElem?_modify, if_neg spared, found]

/-- Every handle is still there; only the one that is stepped may be noted to be exhausted. -/
theorem enact_handle_kept {other : Nat} {kept : Handle}
    (found : session.handles[other]? = some kept) :
    (session.enact index handle deed).1.handles[other]? =
      some (if index = other then settled deed.exhausted kept else kept) := by
  rw [enact_handles]
  apply getElem?_append_of_some
  rw [Array.getElem?_modify, found]
  split
  · rfl
  · rfl

theorem enact_mark_kept {mark place : Nat} (found : session.marks[mark]? = some place) :
    (session.enact index handle deed).1.marks[mark]? = some place := by
  rw [enact_marks]
  exact getElem?_append_of_some found _

/-- A step moves the cursor beneath its handle to where its deed says. -/
theorem enact_cursor_moved {cursor : Cursor}
    (found : session.cursors[handle.stack.cursor]? = some cursor) :
    (session.enact index handle deed).1.cursors[handle.stack.cursor]? =
      some ⟨cursor.source, deed.position⟩ := by
  rw [enact_cursors]
  apply getElem?_append_of_some
  rw [Array.getElem?_modify, if_pos rfl, found]
  rfl

theorem position_enact_of_ne (hasCursor : stack.cursor < session.cursors.size)
    (elsewhere : stack.cursor ≠ handle.stack.cursor) :
    (session.enact index handle deed).1.position stack = session.position stack := by
  have found := Array.getElem?_eq_getElem hasCursor
  simp only [position, enact_cursor_kept elsewhere found, found]

theorem source_enact (hasCursor : stack.cursor < session.cursors.size) :
    (session.enact index handle deed).1.source stack = session.source stack := by
  obtain ⟨cursor, found⟩ : ∃ cursor, session.cursors[stack.cursor]? = some cursor :=
    ⟨_, Array.getElem?_eq_getElem hasCursor⟩
  by_cases same : stack.cursor = handle.stack.cursor
  · rw [same] at found
    simp only [Session.source, same, enact_cursor_moved found, found]
  · simp only [Session.source, enact_cursor_kept same found, found]

theorem layer_enact {recorder : Nat} (inRange : recorder < session.recorders.size) :
    (session.enact index handle deed).1.layer (.recorder recorder) =
      if deed.product.rebased? = some recorder then .recording deed.position
      else session.layer (.recorder recorder) := by
  have found := Array.getElem?_eq_getElem inRange
  by_cases rebased : deed.product.rebased? = some recorder
  · have moved : (session.enact index handle deed).1.recorders[recorder]? = some deed.position := by
      rw [enact_recorders, rebased]
      apply getElem?_append_of_some
      rw [restart, Array.getElem?_modify, if_pos rfl, found, Option.map_some]
    rw [if_pos rebased, layer_recorder moved]
  · rw [if_neg rebased, layer_recorder (enact_recorder_kept rebased found), layer_recorder found]

/-- A step leaves the view of a stack alone, unless it moves a recorder of it. -/
theorem view_enact (hasCursor : stack.cursor < session.cursors.size)
    (spared : ∀ recorder, .recorder recorder ∈ stack.layers →
      recorder < session.recorders.size ∧ deed.product.rebased? ≠ some recorder) :
    (session.enact index handle deed).1.view stack = session.view stack := by
  apply view_congr (source_enact hasCursor)
  intro recorder member
  obtain ⟨inRange, notMoved⟩ := spared recorder member
  rw [layer_enact inRange, if_neg notMoved]

/-- What an operation by way of the handle at an index leaves alone: all other cursors, all
recorders but the outermost one of a handle that is rebased, all other handles, of which a splitter
alone is noted to be exhausted, and all marks. -/
structure Spares (index : Nat) (handle : Handle) (operation : Operation)
    (session next : Session) : Prop where
  cursors : ∀ (other : Nat) cursor, other ≠ handle.stack.cursor →
    session.cursors[other]? = some cursor → next.cursors[other]? = some cursor
  recorders : ∀ (recorder : Nat) place, session.recorders[recorder]? = some place →
    next.recorders[recorder]? = some place ∨
      operation = .rebase ∧ ∃ cursor inner, handle = .cursor ⟨cursor, .recorder recorder :: inner⟩
  handles : ∀ (other : Nat) kept, session.handles[other]? = some kept →
    next.handles[other]? = some kept ∨
      other = index ∧ ∃ parent delimiter before after,
        kept = .splitter parent delimiter before ∧
        next.handles[other]? = some (.splitter parent delimiter after)
  marks : ∀ (mark : Nat) place, session.marks[mark]? = some place →
    next.marks[mark]? = some place

theorem enact_spares (session : Session) (index : Nat) (handle : Handle) (operation : Operation) :
    Spares index handle operation session
      (session.enact index handle (session.deed handle operation)).1 where
  cursors _ _ elsewhere found := enact_cursor_kept elsewhere found
  recorders recorder place found := by
    by_cases rebased : (session.deed handle operation).product.rebased? = some recorder
    · exact .inr ((session.deed_fits handle operation).of_rebased? rebased)
    · exact .inl (enact_recorder_kept rebased found)
  handles other kept found := by
    rw [enact_handle_kept found]
    by_cases same : index = other
    · rw [if_pos same]
      cases kept with
      | cursor stack => exact .inl rfl
      | splitter parent delimiter before =>
          exact .inr ⟨same.symm, parent, delimiter, before, _, rfl, rfl⟩
      | run stack pattern => exact .inl rfl
    · rw [if_neg same]
      exact .inl rfl
  marks _ _ found := enact_mark_kept found

theorem Sound.step_spares {origin : Source} (sound : session.Sound origin)
    {result : Session × Outcome} (isHandle : session.handles[index]? = some handle)
    (taken : session.step index operation = some result) :
    Spares index handle operation session result.1 := by
  have hasCursor := sound.handles handle (Array.mem_of_getElem? isHandle)
  rw [step_eq_enact isHandle hasCursor, Option.some.injEq] at taken
  rw [← taken]
  exact enact_spares session index handle operation

end Frame

end Session

end RecordScan
