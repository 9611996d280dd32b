import Mathlib.Logic.Embedding.Basic
import RecordScan.Proofs.Session.Locality

/-!
Contract: a cursor that is returned to a mark goes on as it did from there.

Owns: what a run retains that rebases none of some layers (`Session.Retains`); sessions
of which one mirrors a part of the other at other numbers (`Session.Mirrors`), with one
step and a whole run on the part; and the return to a mark.

What happens between the mark and the return makes cursors, recorders, handles and
marks of its own. What a replay makes has higher numbers than it had the first time,
by as many as were made in between. The part that is mirrored is what a replay can
reach: the handle, its cursor, its recorders, and all that the replay itself makes.
-/

namespace RecordScan

/-! ## Numbers that are moved up -/

/-- Numbers from a count on are moved up by a distance. -/
def shift (count distance : Nat) : Nat ↪ Nat where
  toFun number := if number < count then number else number + distance
  inj' := by
    intro first second same
    dsimp only at same
    split at same
    · split at same
      · exact same
      · omega
    · split at same
      · omega
      · omega

theorem shift_of_lt {count number : Nat} (below : number < count) (distance : Nat) :
    shift count distance number = number :=
  if_pos below

theorem shift_of_le {count number : Nat} (above : count ≤ number) (distance : Nat) :
    shift count distance number = number + distance :=
  if_neg (Nat.not_lt.mpr above)

/-- The items at the covered places of an array stand in another array at other places, and are
made over. All places past the end are covered, and stand as far past the end. -/
structure Carries {α : Type} (covered : Nat → Prop) (number : Nat ↪ Nat) (change : α → α)
    (items others : Array α) : Prop where
  lookup : ∀ place, covered place → others[number place]? = items[place]?.map change
  ahead : ∀ more, covered (items.size + more)
  number_ahead : ∀ more, number (items.size + more) = others.size + more

namespace Carries

variable {α : Type} {covered : Nat → Prop} {number : Nat ↪ Nat} {change : α → α}
  {items others : Array α}

theorem number_size (carries : Carries covered number change items others) :
    number items.size = others.size :=
  carries.number_ahead 0

/-- An array carries a shorter one if it has the covered items at their places. -/
theorem of_shift (longer : items.size ≤ others.size)
    (ahead : ∀ place, items.size ≤ place → covered place)
    (same : ∀ place, covered place → place < items.size →
      others[place]? = items[place]?.map change) :
    Carries covered (shift items.size (others.size - items.size)) change items others where
  lookup place isCovered := by
    by_cases inside : place < items.size
    · rw [shift_of_lt inside]
      exact same place isCovered inside
    · have beyond := Nat.not_lt.mp inside
      rw [shift_of_le beyond, Array.getElem?_eq_none (by omega), Array.getElem?_eq_none beyond,
        Option.map_none]
  ahead more := ahead _ (Nat.le_add_right ..)
  number_ahead more := by
    rw [shift_of_le (Nat.le_add_right ..)]
    omega

theorem append (carries : Carries covered number change items others) (made : Option α) :
    Carries covered number change (items ++ made.toArray)
      (others ++ (made.map change).toArray) where
  lookup place isCovered := by
    have there := carries.lookup place isCovered
    by_cases inside : place < items.size
    · rw [Array.getElem?_eq_getElem inside, Option.map_some] at there
      rw [Array.getElem?_append_left inside, Array.getElem?_eq_getElem inside, Option.map_some]
      exact Session.getElem?_append_of_some there _
    · obtain ⟨more, rfl⟩ := Nat.exists_eq_add_of_le (Nat.not_lt.mp inside)
      rw [carries.number_ahead, Array.getElem?_append_right (Nat.le_add_right ..),
        Array.getElem?_append_right (Nat.le_add_right ..), Nat.add_sub_cancel_left,
        Nat.add_sub_cancel_left, Option.toArray_map, Array.getElem?_map]
  ahead more := by
    rw [Array.size_append, Nat.add_assoc]
    exact carries.ahead _
  number_ahead more := by
    rw [Array.size_append, Array.size_append, Nat.add_assoc, carries.number_ahead,
      Session.size_toArray, Session.size_toArray, Option.isSome_map, Nat.add_assoc]

theorem modify (carries : Carries covered number change items others) (place : Nat)
    {edit : α → α} (commutes : ∀ item, change (edit item) = edit (change item)) :
    Carries covered number change (items.modify place edit)
      (others.modify (number place) edit) where
  lookup other otherCovered := by
    rw [Array.getElem?_modify, Array.getElem?_modify, carries.lookup other otherCovered]
    by_cases same : place = other
    · rw [if_pos same, if_pos (congrArg number same), Option.map_map, Option.map_map]
      congr 1
      funext item
      exact (commutes item).symm
    · rw [if_neg same, if_neg (number.injective.ne same)]
  ahead := by simpa only [Array.size_modify] using carries.ahead
  number_ahead := by simpa only [Array.size_modify] using carries.number_ahead

end Carries

/-! ## Relocation -/

/-- Where the things of a session stand in another. -/
structure Relocation where
  cursors : Nat ↪ Nat
  recorders : Nat ↪ Nat
  handles : Nat ↪ Nat
  marks : Nat ↪ Nat

/-- What is there stays in place, and what is made later is moved up by what the other session has
more. -/
def Relocation.between (session next : Session) : Relocation where
  cursors := shift session.cursors.size (next.cursors.size - session.cursors.size)
  recorders := shift session.recorders.size (next.recorders.size - session.recorders.size)
  handles := shift session.handles.size (next.handles.size - session.handles.size)
  marks := shift session.marks.size (next.marks.size - session.marks.size)

def Operation.relocate (places : Relocation) : Operation → Operation
  | .restore (.mark mark) => .restore (.mark (places.marks mark))
  | operation => operation

def Handle.relocate (places : Relocation) : Handle → Handle :=
  Handle.renumber places.cursors places.recorders

def Outcome.relocate (places : Relocation) : Outcome → Outcome :=
  Outcome.renumber places.handles places.marks

namespace Session

variable {origin : Source} {session next : Session} {stack : Stack} {index : Nat}
  {operation : Operation} {layers : List LayerRef}

/-! ## What a run retains -/

/-- Along a run, no recorder among some layers is rebased. -/
def RebasesNone (session : Session) (layers : List LayerRef) : List (Nat × Operation) → Prop
  | [] => True
  | (index, operation) :: steps =>
      (∀ cursor recorder inner, operation = .rebase →
        session.handles[index]? = some (.cursor ⟨cursor, .recorder recorder :: inner⟩) →
        .recorder recorder ∉ layers) ∧
      (session.after [(index, operation)]).RebasesNone layers steps

/-- A session that has all things of another, the same cursors as handles, the same marks, and some
recorders at the same starts. -/
structure Retains (layers : List LayerRef) (session next : Session) : Prop where
  cursors_le : session.cursors.size ≤ next.cursors.size
  recorders_le : session.recorders.size ≤ next.recorders.size
  handles_le : session.handles.size ≤ next.handles.size
  marks_le : session.marks.size ≤ next.marks.size
  recorder : ∀ (recorder place : Nat), .recorder recorder ∈ layers →
    session.recorders[recorder]? = some place → next.recorders[recorder]? = some place
  handle : ∀ (index : Nat) stack, session.handles[index]? = some (.cursor stack) →
    next.handles[index]? = some (.cursor stack)
  mark : ∀ (mark place : Nat), session.marks[mark]? = some place →
    next.marks[mark]? = some place

theorem Retains.refl (session : Session) : Retains layers session session :=
  ⟨Nat.le_refl _, Nat.le_refl _, Nat.le_refl _, Nat.le_refl _, fun _ _ _ found => found,
    fun _ _ found => found, fun _ _ found => found⟩

theorem Retains.trans {last : Session} (first : Retains layers session next)
    (second : Retains layers next last) : Retains layers session last where
  cursors_le := Nat.le_trans first.cursors_le second.cursors_le
  recorders_le := Nat.le_trans first.recorders_le second.recorders_le
  handles_le := Nat.le_trans first.handles_le second.handles_le
  marks_le := Nat.le_trans first.marks_le second.marks_le
  recorder recorder place member found :=
    second.recorder recorder place member (first.recorder recorder place member found)
  handle index stack found := second.handle index stack (first.handle index stack found)
  mark mark place found := second.mark mark place (first.mark mark place found)

theorem Sound.step_retains (sound : session.Sound origin) {result : Session × Outcome}
    (taken : session.step index operation = some result)
    (spared : ∀ cursor recorder inner, operation = .rebase →
      session.handles[index]? = some (.cursor ⟨cursor, .recorder recorder :: inner⟩) →
      .recorder recorder ∉ layers) :
    Retains layers session result.1 := by
  obtain ⟨handle, isHandle, hasCursor, -⟩ := sound.step_effect taken
  have spares := sound.step_spares isHandle taken
  rw [step_eq_enact isHandle hasCursor, Option.some.injEq] at taken
  subst taken
  refine ⟨?_, ?_, ?_, ?_, ?_, ?_, spares.marks⟩
  · rw [size_enact_cursors]
    exact Nat.le_add_right ..
  · rw [size_enact_recorders]
    exact Nat.le_add_right ..
  · rw [size_enact_handles]
    exact Nat.le_add_right ..
  · rw [size_enact_marks]
    exact Nat.le_add_right ..
  · intro recorder place member found
    rcases spares.recorders recorder place found with kept | ⟨isRebase, cursor, inner, rfl⟩
    · exact kept
    · exact absurd member (spared cursor recorder inner isRebase isHandle)
  · intro other stack found
    rcases spares.handles other _ found with kept | ⟨-, parent, delimiter, before, _, isSplitter, -⟩
    · exact kept
    · cases isSplitter

theorem Sound.after_retains (sound : session.Sound origin) {steps : List (Nat × Operation)}
    (rebasesNone : session.RebasesNone layers steps) :
    Retains layers session (session.after steps) := by
  induction steps generalizing session with
  | nil => exact .refl session
  | cons step steps inductionHypothesis =>
      obtain ⟨index, operation⟩ := step
      obtain ⟨spared, onward⟩ := rebasesNone
      rw [after] at onward ⊢
      cases taken : session.step index operation with
      | none =>
          rw [taken] at onward
          exact inductionHypothesis sound onward
      | some result =>
          rw [taken] at onward
          exact (sound.step_retains taken spared).trans
            (inductionHypothesis (sound.step_proceeds taken).onward.sound onward)

/-! ## Mirrored parts -/

/-- A part of a session, by its numbers. -/
structure Part where
  cursors : Nat → Prop
  recorders : Nat → Prop
  handles : Nat → Prop

/-- All that a run on the handle at an index can reach: its stack, and what is made later. -/
def Part.reach (session : Session) (index : Nat) (stack : Stack) : Part where
  cursors cursor := cursor = stack.cursor ∨ session.cursors.size ≤ cursor
  recorders recorder := .recorder recorder ∈ stack.layers ∨ session.recorders.size ≤ recorder
  handles handle := handle = index ∨ session.handles.size ≤ handle

/-- A handle whose cursor and recorders are in a part. -/
structure Part.Holds (part : Part) (handle : Handle) : Prop where
  cursor : part.cursors handle.stack.cursor
  recorders : ∀ recorder, .recorder recorder ∈ handle.stack.layers → part.recorders recorder

/-- The second session has a part of the first one at other places, and all of its marks. Handles of
the part do not lead out of it. -/
structure Mirrors (part : Part) (places : Relocation) (session next : Session) : Prop where
  cursors : Carries part.cursors places.cursors id session.cursors next.cursors
  recorders : Carries part.recorders places.recorders id session.recorders next.recorders
  handles : Carries part.handles places.handles (Handle.relocate places) session.handles
    next.handles
  marks : Carries (fun _ => True) places.marks id session.marks next.marks
  closed : ∀ (index : Nat) handle, part.handles index → session.handles[index]? = some handle →
    part.Holds handle

namespace Mirrors

variable {part : Part} {places : Relocation} {handle : Handle} {deed : Deed}

/-! ### What is seen -/

theorem cursor_eq (mirrors : Mirrors part places session next) {cursor : Nat}
    (covered : part.cursors cursor) :
    next.cursors[places.cursors cursor]? = session.cursors[cursor]? := by
  rw [mirrors.cursors.lookup cursor covered, Option.map_id, id]

theorem position_eq (mirrors : Mirrors part places session next) (holds : part.Holds handle) :
    next.position (handle.stack.renumber places.cursors places.recorders) =
      session.position handle.stack := by
  simp only [position, Stack.renumber, mirrors.cursor_eq holds.cursor]

theorem view_eq (mirrors : Mirrors part places session next) (holds : part.Holds handle) :
    next.view (handle.stack.renumber places.cursors places.recorders) =
      session.view handle.stack := by
  apply view_renumber
  · simp only [Session.source, Stack.renumber, mirrors.cursor_eq holds.cursor]
  · intro recorder member
    have same := mirrors.recorders.lookup recorder (holds.recorders recorder member)
    simp only [layer, Array.getD_eq_getD_getElem?, same, Option.map_id, id]

theorem sameRequest (mirrors : Mirrors part places session next) (operation : Operation) :
    SameRequest session next operation (operation.relocate places) := by
  by_cases namesMark : ∃ mark, operation = .restore (.mark mark)
  · obtain ⟨mark, rfl⟩ := namesMark
    have samePlace := mirrors.marks.lookup mark trivial
    rw [Option.map_id, id] at samePlace
    exact .mark samePlace
  · have same : operation.relocate places = operation := by
      cases operation with
      | restore target =>
          cases target with
          | mark mark => exact absurd ⟨mark, rfl⟩ namesMark
          | position offset => rfl
      | _ => rfl
    rw [same]
    exact .plain fun mark isMark => namesMark ⟨mark, isMark⟩

/-! ### What is done -/

theorem restart_carries {recorders others : Array Nat} {covered : Nat → Prop} {number : Nat ↪ Nat}
    (carries : Carries covered number id recorders others) (here : Nat) (rebased : Option Nat) :
    Carries covered number id (restart recorders here rebased)
      (restart others here (rebased.map number)) := by
  cases rebased with
  | none => exact carries
  | some recorder => exact carries.modify recorder fun _ => rfl

/-- What is made has its cursor and its recorders in the part, if its handle does. -/
theorem made_holds (mirrors : Mirrors part places session next) (holds : part.Holds handle)
    {product : Product} (fits : product.Fits handle operation) {made : Handle}
    (isMade : product.handle? handle.stack session.cursors.size session.recorders.size =
      some made) :
    part.Holds made := by
  cases product with
  | handle derived =>
      cases isMade
      have derives : Derives handle made := fits
      exact ⟨derives.sameCursor ▸ holds.cursor, fun recorder member =>
        holds.recorders recorder (derives.recorders recorder member)⟩
  | recorder =>
      cases isMade
      refine ⟨holds.cursor, fun recorder member => ?_⟩
      rcases List.mem_cons.mp member with isNew | inLayers
      · cases isNew
        exact mirrors.recorders.ahead 0
      · exact holds.recorders recorder inLayers
  | segment piece =>
      cases isMade
      refine ⟨mirrors.cursors.ahead 0, fun recorder member => ?_⟩
      exact absurd member (Product.recorder_notMem_layersOf piece recorder)
  | _ => cases isMade

theorem enact_closed (mirrors : Mirrors part places session next) (holds : part.Holds handle)
    (fits : deed.product.Fits handle operation) {other : Nat} {kept : Handle}
    (covered : part.handles other)
    (found : (session.enact index handle deed).1.handles[other]? = some kept) :
    part.Holds kept := by
  cases isOld : session.handles[other]? with
  | some old =>
      rw [enact_handle_kept isOld, Option.some.injEq] at found
      have sameStack : kept.stack = old.stack := by
        rw [← found]
        split
        · cases old <;> rfl
        · rfl
      obtain ⟨cursor, recorders⟩ := mirrors.closed other old covered isOld
      rw [← sameStack] at cursor recorders
      exact ⟨cursor, recorders⟩
  | none =>
      have beyond := Array.getElem?_eq_none_iff.mp isOld
      rw [enact_handles, Array.getElem?_append_right (by simpa using beyond)] at found
      exact mirrors.made_holds holds fits (Option.mem_toArray.mp (Array.mem_of_getElem? found))

/-- A deed that is carried out in both sessions. -/
theorem enact (mirrors : Mirrors part places session next) (holds : part.Holds handle)
    (fits : deed.product.Fits handle operation) (index : Nat) :
    Mirrors part places (session.enact index handle deed).1
      (next.enact (places.handles index) (handle.relocate places)
        (deed.renumber places.cursors places.recorders)).1 where
  cursors := by
    have sameCursor : (deed.product.renumber places.cursors places.recorders).cursor? =
        deed.product.cursor?.map id := by
      cases deed.product <;> rfl
    rw [enact_cursors, enact_cursors, Handle.relocate, Handle.stack_renumber, Deed.renumber,
      sameCursor]
    refine Carries.append ?_ _
    exact mirrors.cursors.modify handle.stack.cursor fun _ => rfl
  recorders := by
    have sameRebased : (deed.product.renumber places.cursors places.recorders).rebased? =
        deed.product.rebased?.map places.recorders := by
      cases deed.product <;> rfl
    have sameRecorder (here : Nat) :
        (deed.product.renumber places.cursors places.recorders).recorder? here =
          (deed.product.recorder? here).map id := by
      cases deed.product <;> rfl
    rw [enact_recorders, enact_recorders, Deed.renumber, sameRebased, sameRecorder]
    exact (restart_carries mirrors.recorders _ _).append _
  handles := by
    have made := deed.product.handle?_renumber handle.stack deed.position
      (fun _ => mirrors.cursors.number_size) (fun _ => mirrors.recorders.number_size)
    rw [enact_handles, enact_handles, Handle.relocate, Handle.stack_renumber, Deed.renumber, made]
    refine (mirrors.handles.modify index fun kept => ?_).append _
    cases kept with
    | _ => rfl
  marks := by
    have sameMark (here : Nat) :
        (deed.product.renumber places.cursors places.recorders).mark? here =
          (deed.product.mark? here).map id := by
      cases deed.product <;> rfl
    rw [enact_marks, enact_marks, Deed.renumber, sameMark]
    exact mirrors.marks.append _
  closed _ _ covered found := mirrors.enact_closed holds fits covered found

theorem step_none (mirrors : Mirrors part places session next) (covered : part.handles index)
    (notTaken : session.step index operation = none) :
    next.step (places.handles index) (operation.relocate places) = none := by
  have missing : session.handles[index]? = none := Option.map_eq_none_iff.mp notTaken
  rw [step, mirrors.handles.lookup index covered, missing]
  rfl

/-- A step on the part shows the same in both sessions and leaves the part mirrored. -/
theorem step_some (mirrors : Mirrors part places session next) (sound : session.Sound origin)
    (covered : part.handles index) {later : Session} {outcome : Outcome}
    (taken : session.step index operation = some (later, outcome)) :
    ∃ nextLater, next.step (places.handles index) (operation.relocate places) =
        some (nextLater, outcome.relocate places) ∧
      Mirrors part places later nextLater := by
  obtain ⟨handle, isHandle, hasCursor, -⟩ := sound.step_effect taken
  have holds := mirrors.closed index handle covered isHandle
  have fits := session.deed_fits handle operation
  have isNext : next.handles[places.handles index]? = some (handle.relocate places) := by
    rw [mirrors.handles.lookup index covered, isHandle, Option.map_some]
  have hasNext : (handle.relocate places).stack.cursor < next.cursors.size := by
    have same := mirrors.cursor_eq holds.cursor
    rw [Array.getElem?_eq_getElem hasCursor] at same
    rw [Handle.relocate, Handle.stack_renumber]
    exact (Array.getElem?_eq_some_iff.mp same).1
  have sameDeed : next.deed (handle.relocate places) (operation.relocate places) =
      (session.deed handle operation).renumber places.cursors places.recorders :=
    deed_renumber (mirrors.view_eq holds) (mirrors.position_eq holds)
      (mirrors.sameRequest operation)
  let nextResult := next.enact (places.handles index) (handle.relocate places)
    ((session.deed handle operation).renumber places.cursors places.recorders)
  have sameOutcome : nextResult.2 =
      (session.enact index handle (session.deed handle operation)).2.relocate places := by
    refine (next.enact_renumber_outcome _ handle _ _ _).trans ?_
    exact enact_outcome_eq fits _ _ (fun _ => mirrors.handles.number_size)
      fun _ => mirrors.marks.number_size
  have enacted := mirrors.enact holds fits index
  rw [step_eq_enact isHandle hasCursor, Option.some.injEq] at taken
  rw [taken] at sameOutcome enacted
  refine ⟨nextResult.1, ?_, enacted⟩
  rw [step_eq_enact isNext hasNext, sameDeed, ← sameOutcome]

end Mirrors

/-! ## Runs on a part -/

/-- What each step of a run shows, if there is such a handle. -/
def outcomes (session : Session) : List (Nat × Operation) → List (Option Outcome)
  | [] => []
  | (index, operation) :: steps =>
      (session.step index operation).map (·.2) ::
        (session.after [(index, operation)]).outcomes steps

/-- The same steps, by their numbers in another session. -/
def relocated (places : Relocation) (steps : List (Nat × Operation)) : List (Nat × Operation) :=
  steps.map fun step => (places.handles step.1, step.2.relocate places)

theorem Mirrors.outcomes_eq {part : Part} {places : Relocation}
    (mirrors : Mirrors part places session next) (sound : session.Sound origin)
    {steps : List (Nat × Operation)} (within : ∀ step ∈ steps, part.handles step.1) :
    next.outcomes (relocated places steps) =
      (session.outcomes steps).map (Option.map (Outcome.relocate places)) := by
  induction steps generalizing session next with
  | nil => rfl
  | cons step steps inductionHypothesis =>
      obtain ⟨index, operation⟩ := step
      have covered : part.handles index := within _ (List.mem_cons_self ..)
      have withinRest : ∀ step ∈ steps, part.handles step.1 := fun step member =>
        within step (List.mem_cons_of_mem _ member)
      show next.outcomes ((places.handles index, operation.relocate places) ::
        relocated places steps) = _
      rw [outcomes, outcomes, List.map_cons]
      cases taken : session.step index operation with
      | none =>
          simp only [after, taken, mirrors.step_none covered taken, Option.map_none,
            inductionHypothesis mirrors sound withinRest]
      | some result =>
          obtain ⟨later, outcome⟩ := result
          obtain ⟨nextLater, nextTaken, stillMirrors⟩ := mirrors.step_some sound covered taken
          have laterSound := (sound.step_proceeds taken).onward.sound
          simp only [after, taken, nextTaken, Option.map_some,
            inductionHypothesis stillMirrors laterSound withinRest]

/-! ## The return to a mark -/

section Return

variable (recorded : ∀ recorder, .recorder recorder ∈ stack.layers →
  recorder < session.recorders.size)

include recorded

/-- A run that rebases no layer of a stack leaves its view alone. -/
theorem Retains.view_eq (retains : Retains stack.layers session next)
    (sources : session.SourcesKept next) (hasCursor : stack.cursor < session.cursors.size) :
    next.view stack = session.view stack := by
  apply view_congr (sources.source_eq hasCursor)
  intro recorder member
  have found := Array.getElem?_eq_getElem (recorded recorder member)
  rw [layer_recorder found, layer_recorder (retains.recorder recorder _ member found)]

/-- Once the cursor is back, what a run on the handle can reach is as it was. -/
theorem Retains.mirrors (retains : Retains stack.layers session next)
    (isHandle : session.handles[index]? = some (.cursor stack))
    (hasCursor : stack.cursor < session.cursors.size)
    (returned : next.cursors[stack.cursor]? = session.cursors[stack.cursor]?) :
    Mirrors (.reach session index stack) (.between session next) session next where
  cursors := by
    refine .of_shift retains.cursors_le (fun _ => .inr) fun cursor covered inside => ?_
    rcases covered with rfl | beyond
    · rw [returned, Option.map_id, id]
    · exact absurd inside (Nat.not_lt.mpr beyond)
  recorders := by
    refine .of_shift retains.recorders_le (fun _ => .inr) fun recorder covered inside => ?_
    rcases covered with member | beyond
    · have found := Array.getElem?_eq_getElem inside
      rw [retains.recorder recorder _ member found, found, Option.map_some, id]
    · exact absurd inside (Nat.not_lt.mpr beyond)
  handles := by
    refine .of_shift retains.handles_le (fun _ => .inr) fun handle covered inside => ?_
    rcases covered with rfl | beyond
    · have fixed : (Handle.cursor stack).relocate (.between session next) = .cursor stack :=
        Handle.renumber_eq_self (shift_of_lt hasCursor _) fun recorder member =>
          shift_of_lt (recorded recorder member) _
      rw [retains.handle _ stack isHandle, isHandle, Option.map_some, fixed]
    · exact absurd inside (Nat.not_lt.mpr beyond)
  marks := by
    refine .of_shift retains.marks_le (fun _ _ => trivial) fun mark _ inside => ?_
    have found := Array.getElem?_eq_getElem inside
    rw [retains.mark mark _ found, found, Option.map_some, id]
  closed := by
    intro other handle covered found
    rcases covered with rfl | beyond
    · rw [isHandle, Option.some.injEq] at found
      subst found
      exact ⟨.inl rfl, fun _ => .inl⟩
    · rw [Array.getElem?_eq_none beyond] at found
      cases found

end Return

theorem Sound.placed (sound : session.Sound origin)
    (hasCursor : stack.cursor < session.cursors.size)
    (reached : ∀ recorder, .recorder recorder ∈ stack.layers →
      ∃ place, session.recorders[recorder]? = some place ∧ place ≤ session.position stack) :
    (session.view stack).Placed (session.position stack) := by
  refine ⟨sound.admits hasCursor, fun start member => ?_⟩
  obtain ⟨layer, inLayers, isStart⟩ := List.mem_map.mp member
  cases layer with
  | recorder recorder =>
      obtain ⟨place, found, before⟩ := reached recorder inLayers
      rw [layer_recorder found] at isStart
      cases isStart
      exact before
  | ignoring unit => cases isStart
  | stopped => cases isStart

theorem step_checkpoint (isHandle : session.handles[index]? = some (.cursor stack)) :
    session.step index .checkpoint =
      some (plainOutcome { session with marks := session.marks.push (session.position stack) } stack
        (.reply (.mark session.marks.size (session.position stack)))) := by
  simp only [step, isHandle, Option.map_some]
  rfl

/-- The return to a mark in all recordings of a handle. -/
theorem restore_mark {mark place : Nat}
    (isHandle : session.handles[index]? = some (.cursor stack))
    (isMark : session.marks[mark]? = some place) (placed : (session.view stack).Placed place) :
    session.answer index (.restore (.mark mark)) = some (.reply .nothing) ∧
      session.after [(index, .restore (.mark mark))] = session.moveTo stack place := by
  have isScan : session.scanOf (session.view stack) (.restore (.mark mark)) =
      some (do (session.view stack).restore place; return .nothing) := by
    simp only [scanOf, isMark]
    rfl
  have returns : (do (session.view stack).restore place; return .nothing : Scan Reply)
      (session.position stack) = (.ok .nothing, place) :=
    Scan.bind_of_ok (View.restoreThrough_eq placed _)
  refine ⟨reply_of_scanOf isHandle isScan returns, ?_⟩
  obtain ⟨outcome, taken, -⟩ := step_of_scanOf isHandle isScan
  simp only [after, taken, returns]

/-- A cursor that is moved back to where it was reads the same as it did. -/
theorem SourcesKept.cursor_moveTo (sources : session.SourcesKept next)
    (hasCursor : stack.cursor < session.cursors.size) :
    (next.moveTo stack (session.position stack)).cursors[stack.cursor]? =
      session.cursors[stack.cursor]? := by
  have found := Array.getElem?_eq_getElem hasCursor
  obtain ⟨moved, there⟩ := sources stack.cursor _ found
  simp only [moveTo, position, found]
  rw [Array.getElem?_modify, if_pos rfl, there]
  rfl

theorem answer_tell (isHandle : session.handles[index]? = some (.cursor stack)) :
    session.answer index .tell = some (.reply (.count (session.position stack))) :=
  reply_of_scanOf isHandle rfl rfl

/-- After any run that rebases no layer of a handle, the return to a mark at the position that the
handle had succeeds. It leads to that position, and all that a run on the handle can reach is as it
was. -/
theorem Sound.return_to_mark (sound : session.Sound origin)
    (isHandle : session.handles[index]? = some (.cursor stack))
    (recorded : ∀ recorder, .recorder recorder ∈ stack.layers →
      recorder < session.recorders.size)
    (placed : (session.view stack).Placed (session.position stack)) {mark : Nat}
    (isMark : session.marks[mark]? = some (session.position stack))
    {later : List (Nat × Operation)} (rebasesNone : session.RebasesNone stack.layers later) :
    let moved := session.after later
    let restored := moved.after [(index, .restore (.mark mark))]
    moved.answer index (.restore (.mark mark)) = some (.reply .nothing) ∧
      restored.answer index .tell = session.answer index .tell ∧
      Mirrors (.reach session index stack) (.between session restored) session restored := by
  intro moved restored
  have hasCursor := sound.hasCursor isHandle
  have onward : Onward origin session moved := sound.after_onward later
  have retains : Retains stack.layers session moved := sound.after_retains rebasesNone
  have stillHandle := retains.handle index stack isHandle
  have stillPlaced : (moved.view stack).Placed (session.position stack) := by
    rw [retains.view_eq recorded onward.sources hasCursor]
    exact placed
  obtain ⟨answers, isRestored⟩ :=
    restore_mark stillHandle (retains.mark mark _ isMark) stillPlaced
  have retainsRestored : Retains stack.layers session restored :=
    retains.trans (onward.sound.after_retains ⟨nofun, trivial⟩)
  have isMoved : restored = moved.moveTo stack (session.position stack) := isRestored
  refine ⟨answers, ?_, retainsRestored.mirrors recorded isHandle hasCursor ?_⟩
  · rw [answer_tell (retainsRestored.handle index stack isHandle), answer_tell isHandle, isMoved,
      position_moveTo (onward.hasCursor hasCursor)]
  · rw [isMoved]
    exact onward.sources.cursor_moveTo hasCursor

/-- **Backtracking is exact.** Over every accepted buffer, take a mark by way of any cursor handle
that any run of steps made, where the position lies in all its recordings. Then run any steps by
way of any handles, refused ones included, that rebase none of these recordings. The return to the
mark succeeds and leads to its position. Every run on the handle, and on the handles that this run
itself makes, shows the same from there as right after the mark was taken, up to the numbers of what
it makes. -/
theorem backtracking_is_exact {mode : Mode} {input : Source.Input} {source : Source}
    (codePoints : ∀ text, input = .text text → ∀ code ∈ text, code ≤ Code.greatest)
    (accepted : Source.ofInput mode input = .ok source) (earlier later : List (Nat × Operation))
    (index : Nat) (stack : Stack)
    (isHandle : ((start source).after earlier).handles[index]? = some (.cursor stack))
    (reached : ∀ recorder place, .recorder recorder ∈ stack.layers →
      ((start source).after earlier).recorders[recorder]? = some place →
      place ≤ ((start source).after earlier).position stack)
    (rebasesNone : (((start source).after earlier).after [(index, .checkpoint)]).RebasesNone
      stack.layers later) :
    let before := (start source).after earlier
    let mark := before.marks.size
    let marked := before.after [(index, .checkpoint)]
    let moved := marked.after later
    let restored := moved.after [(index, .restore (.mark mark))]
    let places := Relocation.between marked restored
    ∃ here,
      before.answer index .tell = some (.reply (.count here)) ∧
      before.answer index .checkpoint = some (.reply (.mark mark here)) ∧
      moved.answer index (.restore (.mark mark)) = some (.reply .nothing) ∧
      restored.answer index .tell = some (.reply (.count here)) ∧
      places.handles index = index ∧
      ∀ steps, (∀ step ∈ steps, step.1 = index ∨ marked.handles.size ≤ step.1) →
        restored.outcomes (relocated places steps) =
          (marked.outcomes steps).map (Option.map (Outcome.relocate places)) := by
  intro before mark marked moved restored places
  have started := start_sound (Source.wellFormed_ofInput codePoints accepted)
  have sound : before.Sound source := (started.after_onward earlier).sound
  have tied : before.Tied := (start_tied source).after started earlier
  have hasCursor := sound.hasCursor isHandle
  have ties := tied _ (Array.mem_of_getElem? isHandle)
  have checkpoint : before.step index .checkpoint = some _ := step_checkpoint isHandle
  have isMarked : marked =
      { before with marks := before.marks.push (before.position stack) } := by
    simp only [marked, after, checkpoint]
    rfl
  have sameStack : marked.handles[index]? = some (.cursor stack) ∧
      marked.marks[mark]? = some (marked.position stack) ∧
      (∀ recorder, .recorder recorder ∈ stack.layers → recorder < marked.recorders.size) ∧
      (marked.view stack).Placed (marked.position stack) := by
    rw [isMarked]
    refine ⟨isHandle, Array.getElem?_push_size,
      fun recorder member => (ties recorder member).lt_size, ?_⟩
    apply sound.placed hasCursor
    intro recorder member
    obtain ⟨place, found, -⟩ := (ties recorder member).admitted
    exact ⟨place, found, reached recorder place member found⟩
  obtain ⟨isMarkedHandle, isMark, recorded, placed⟩ := sameStack
  have markedSound : marked.Sound source := (sound.after_onward _).sound
  obtain ⟨answers, tells, mirrors⟩ :=
    markedSound.return_to_mark isMarkedHandle recorded placed isMark rebasesNone
  refine ⟨before.position stack, answer_tell isHandle, ?_, answers, ?_, ?_, ?_⟩
  · rw [answer, checkpoint]
    rfl
  · rw [tells, answer_tell isMarkedHandle, isMarked]
    rfl
  · exact shift_of_lt (Array.getElem?_eq_some_iff.mp isMarkedHandle).1 _
  · exact fun steps within => mirrors.outcomes_eq markedSound within

/-- Between the mark and the return, the cursor is moved ahead, returned too far by way of a handle
that does not record, and recorded anew. The replay records it once more. -/
theorem backtracking_is_exact_past_recorder :
    let source : Source := .ofBytes [0x61, 0x62, 0x63]
    let marked := ((start source).after [(0, .advance), (0, .record)]).after [(1, .checkpoint)]
    let later : List (Nat × Operation) :=
      [(1, .advance), (0, .restore (.position 0)), (0, .record), (2, .rebase)]
    let restored := (marked.after later).after [(1, .restore (.mark 0))]
    let places := Relocation.between marked restored
    let steps : List (Nat × Operation) := [(1, .record), (2, .advance), (1, .tell)]
    (marked.after later).cursors = #[⟨source, 0⟩] ∧ restored.cursors = #[⟨source, 1⟩] ∧
      places.handles 2 = 3 ∧
      restored.outcomes (relocated places steps) =
        (marked.outcomes steps).map (Option.map (Outcome.relocate places)) := by
  intro source marked later restored places steps
  have accepted : Source.ofInput .bytes (.bytes [0x61, 0x62, 0x63]) = .ok source := rfl
  let before := (start source).after [(0, .advance), (0, .record)]
  have isHandle : before.handles[1]? = some (.cursor ⟨0, [.recorder 0]⟩) := rfl
  have reached : ∀ recorder place, LayerRef.recorder recorder ∈ [.recorder 0] →
      before.recorders[recorder]? = some place → place ≤ before.position ⟨0, [.recorder 0]⟩ := by
    intro recorder place member found
    cases List.mem_singleton.mp member
    cases found
    decide +kernel
  have layers : ((((marked.after [(1, .advance)]).after [(0, .restore (.position 0))]).after
      [(0, .record)]).handles[2]?).map (·.stack.layers) = some [.recorder 1] := by
    decide +kernel
  have rebasesNone : marked.RebasesNone [.recorder 0] later := by
    refine ⟨nofun, nofun, nofun, ?_, trivial⟩
    intro cursor recorder inner _ isRebased
    rw [isRebased] at layers
    have isLayers : LayerRef.recorder recorder :: inner = [.recorder 1] := Option.some.inj layers
    cases isLayers
    decide
  have within : ∀ step ∈ steps, step.1 = 1 ∨ marked.handles.size ≤ step.1 := by
    have count : marked.handles.size = 2 := by decide +kernel
    simp [steps, count]
  obtain ⟨here, -, -, -, -, -, replays⟩ :=
    backtracking_is_exact (by rintro text ⟨⟩) accepted [(0, .advance), (0, .record)] later 1
      ⟨0, [.recorder 0]⟩ isHandle reached rebasesNone
  exact ⟨by decide +kernel, by decide +kernel, by decide +kernel, replays steps within⟩

end Session

end RecordScan
