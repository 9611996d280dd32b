import Mathlib.Logic.Equiv.Basic
import RecordScan.Proofs.Session.Locality

/-!
Contract: cursors of a session do not interfere.

Owns: other numbers for the things of a session (`Session.Renumbering`) and sessions
that are the same up to them (`Session.SameUpTo`); the deed of a step after a step on
another cursor, which is the same (`Session.step_after_enact`); the state after two
deeds in a row; and the frame and the commutation of steps on different cursors.

Two steps that both make something number it in the order in which they are taken.
The sessions that the two orders lead to are therefore not equal, but one is the other
with the two new numbers exchanged.
-/

namespace RecordScan

/-! ## Arrays that are changed and extended -/

section Arrays

variable {α : Type} {items more : Array α} {place other : Nat} {change otherChange : α → α}

private theorem modify_append (inside : place < items.size) :
    (items ++ more).modify place change = items.modify place change ++ more := by
  apply Array.ext_getElem?
  intro index
  rw [Array.getElem?_modify]
  by_cases within : index < items.size
  · rw [Array.getElem?_append_left within, Array.getElem?_append_left (by simpa using within),
      Array.getElem?_modify]
  · rw [if_neg (by omega), Array.getElem?_append_right (by omega),
      Array.getElem?_append_right (by simpa using within), Array.size_modify]

private theorem modify_comm (apart : place ≠ other) :
    (items.modify place change).modify other otherChange =
      (items.modify other otherChange).modify place change := by
  apply Array.ext_getElem?
  intro index
  simp only [Array.getElem?_modify]
  by_cases isPlace : place = index
  · rw [if_pos isPlace, if_pos isPlace, if_neg (by omega), if_neg (by omega)]
  · rw [if_neg isPlace, if_neg isPlace]

/-- The exchange of the next two numbers, if both are given out. -/
def exchange (count : Nat) (first second : Bool) : Equiv.Perm Nat :=
  if first && second then Equiv.swap count (count + 1) else Equiv.refl Nat

theorem exchange_of_lt {count index : Nat} (below : index < count) (first second : Bool) :
    exchange count first second index = index := by
  unfold exchange
  split
  · exact Equiv.swap_apply_of_ne_of_ne (by omega) (by omega)
  · rfl

theorem exchange_first {first : Bool} (given : first = true) (count : Nat) (second : Bool) :
    exchange count first second count = count + second.toNat := by
  subst given
  cases second with
  | true => exact Equiv.swap_apply_left _ _
  | false => rfl

theorem exchange_second {second : Bool} (given : second = true) (count : Nat) (first : Bool) :
    exchange count first second (count + first.toNat) = count := by
  subst given
  cases first with
  | true => exact Equiv.swap_apply_right _ _
  | false => rfl

/-- Two items that are added in either order stand at exchanged places. -/
theorem getElem?_exchange (items : Array α) (first second : Option α) (index : Nat) :
    (items ++ second.toArray ++ first.toArray)[exchange items.size first.isSome second.isSome
        index]? = (items ++ first.toArray ++ second.toArray)[index]? := by
  cases first with
  | none => simp [exchange]
  | some first =>
      cases second with
      | none => simp [exchange]
      | some second =>
          have lookup (one two : α) (index : Nat) :
              (items ++ (some one).toArray ++ (some two).toArray)[index]? =
                if index = items.size + 1 then some two
                else if index = items.size then some one else items[index]? := by
            simp only [Option.toArray_some, Array.append_singleton]
            rw [Array.getElem?_push, Array.getElem?_push, Array.size_push]
          have isSwap : exchange items.size (some first).isSome (some second).isSome =
              Equiv.swap items.size (items.size + 1) := rfl
          rw [lookup, lookup, isSwap]
          by_cases isFirst : index = items.size
          · simp [isFirst, Equiv.swap_apply_left]
          · by_cases isSecond : index = items.size + 1
            · simp [isSecond, Equiv.swap_apply_right]
            · simp [isFirst, isSecond, Equiv.swap_apply_of_ne_of_ne isFirst isSecond]

/-- The same where the items that are added later are made over. -/
theorem getElem?_exchange_map {change : α → α} (fixed : items.map change = items)
    (first second : Option α) (index : Nat) :
    (items ++ (second.map change).toArray ++ (first.map change).toArray)[exchange items.size
        first.isSome second.isSome index]? =
      (items ++ first.toArray ++ second.toArray)[index]?.map change := by
  have exchanged := getElem?_exchange items (first.map change) (second.map change) index
  rw [Option.isSome_map, Option.isSome_map] at exchanged
  rw [exchanged, ← Array.getElem?_map, Array.map_append, Array.map_append, fixed,
    Option.toArray_map, Option.toArray_map]

end Arrays

/-! ## Other numbers -/

namespace Session

/-- Other numbers for the things of a session. -/
structure Renumbering where
  cursors : Equiv.Perm Nat
  recorders : Equiv.Perm Nat
  handles : Equiv.Perm Nat
  marks : Equiv.Perm Nat

/-- The numbers of all things of a session stay. -/
structure Renumbering.Fixes (numbers : Renumbering) (session : Session) : Prop where
  cursors : ∀ index < session.cursors.size, numbers.cursors index = index
  recorders : ∀ index < session.recorders.size, numbers.recorders index = index
  handles : ∀ index < session.handles.size, numbers.handles index = index
  marks : ∀ index < session.marks.size, numbers.marks index = index

/-- The second session is the first one with other numbers. -/
structure SameUpTo (numbers : Renumbering) (first second : Session) : Prop where
  cursors : ∀ index, second.cursors[numbers.cursors index]? = first.cursors[index]?
  recorders : ∀ index, second.recorders[numbers.recorders index]? = first.recorders[index]?
  handles : ∀ index, second.handles[numbers.handles index]? =
    first.handles[index]?.map (Handle.renumber numbers.cursors numbers.recorders)
  marks : ∀ index, second.marks[numbers.marks index]? = first.marks[index]?

/-- An operation that names no mark that is yet to be made. -/
def Knows (session : Session) (operation : Operation) : Prop :=
  ∀ mark, operation = .restore (.mark mark) → mark < session.marks.size

variable {origin : Source} {session : Session} {numbers : Renumbering} {handle : Handle}
  {operation : Operation} {product : Product}

/-- What an operation leaves names nothing but what its handle has, so that numbers which fix the
handle fix it. -/
theorem Product.Fits.renumber_eq_self (fits : product.Fits handle operation)
    (cursorFixed : numbers.cursors handle.stack.cursor = handle.stack.cursor)
    (recordersFixed : ∀ recorder, .recorder recorder ∈ handle.stack.layers →
      numbers.recorders recorder = recorder) :
    product.renumber numbers.cursors numbers.recorders = product := by
  cases product with
  | handle made =>
      have derives : Derives handle made := fits
      apply congrArg Product.handle
      apply Handle.renumber_eq_self
      · rw [derives.sameCursor, cursorFixed]
      · exact fun recorder member => recordersFixed recorder (derives.recorders recorder member)
  | rebase moved =>
      obtain ⟨-, cursor, inner, rfl⟩ := fits
      exact congrArg Product.rebase (recordersFixed moved (List.mem_cons_self ..))
  | _ => rfl

/-- A handle that is made in another order has other numbers, and is otherwise the same. -/
theorem Product.Fits.handle?_eq (fits : product.Fits handle operation) (here : Nat)
    (cursorFixed : numbers.cursors handle.stack.cursor = handle.stack.cursor)
    (recordersFixed : ∀ recorder, .recorder recorder ∈ handle.stack.layers →
      numbers.recorders recorder = recorder)
    {nextCursor nextRecorder otherCursor otherRecorder : Nat}
    (cursorNumber : product.cursor?.isSome = true → numbers.cursors nextCursor = otherCursor)
    (recorderNumber : (product.recorder? here).isSome = true →
      numbers.recorders nextRecorder = otherRecorder) :
    product.handle? handle.stack otherCursor otherRecorder =
      (product.handle? handle.stack nextCursor nextRecorder).map
        (Handle.renumber numbers.cursors numbers.recorders) := by
  have renumbered := product.handle?_renumber handle.stack here cursorNumber recorderNumber
  rw [fits.renumber_eq_self cursorFixed recordersFixed,
    Stack.renumber_eq_self cursorFixed recordersFixed] at renumbered
  exact renumbered

/-! ## One step after another -/

/-- Two steps one after the other, and what each of them shows. -/
def stepTwice (session : Session) (first second : Nat × Operation) :
    Option (Session × Outcome × Outcome) := do
  let (middle, firstOutcome) ← session.step first.1 first.2
  let (last, secondOutcome) ← middle.step second.1 second.2
  return (last, firstOutcome, secondOutcome)

section Apart

variable {first second : Nat} {other : Handle}
  (isHandle : session.handles[first]? = some handle)
  (isOther : session.handles[second]? = some other)
  (apart : handle.stack.cursor ≠ other.stack.cursor)

include isHandle isOther apart

theorem ne_of_apart : first ≠ second := by
  rintro rfl
  rw [isHandle] at isOther
  cases isOther
  exact apart rfl

/-- A step moves no recorder of a handle over another cursor. -/
theorem Tied.rebased?_ne (tied : session.Tied) (operation : Operation) {recorder : Nat}
    (member : .recorder recorder ∈ other.stack.layers) :
    (session.deed handle operation).product.rebased? ≠ some recorder := by
  intro rebased
  obtain ⟨-, cursor, inner, rfl⟩ := (session.deed_fits handle operation).of_rebased? rebased
  have tie := tied other (Array.mem_of_getElem? isOther) recorder member
  exact apart (tie.owned _ (Array.mem_of_getElem? isHandle) (List.mem_cons_self ..))

/-- After a step, a step on another cursor does what it would have done before. -/
theorem step_after_enact (sound : session.Sound origin) (tied : session.Tied)
    (operation : Operation) {otherOperation : Operation} (knows : session.Knows otherOperation) :
    let next := (session.enact first handle (session.deed handle operation)).1
    next.step second otherOperation =
      some (next.enact second other (session.deed other otherOperation)) := by
  intro next
  have hasCursor := sound.handles other (Array.mem_of_getElem? isOther)
  have stillHandle : next.handles[second]? = some other := by
    rw [enact_handle_kept isOther, if_neg (ne_of_apart isHandle isOther apart)]
  have stillCursor : other.stack.cursor < next.cursors.size := by
    have kept : next.cursors[other.stack.cursor]? = some _ :=
      enact_cursor_kept (Ne.symm apart) (Array.getElem?_eq_getElem hasCursor)
    exact (Array.getElem?_eq_some_iff.mp kept).1
  have sameView : next.view other.stack = session.view other.stack := by
    apply view_enact hasCursor
    intro recorder member
    have tie := tied other (Array.mem_of_getElem? isOther) recorder member
    exact ⟨tie.lt_size, tied.rebased?_ne isHandle isOther apart operation member⟩
  have samePosition : next.position other.stack = session.position other.stack :=
    position_enact_of_ne hasCursor (Ne.symm apart)
  have sameRequest : SameRequest session next otherOperation otherOperation := by
    by_cases namesMark : ∃ mark, otherOperation = .restore (.mark mark)
    · obtain ⟨mark, rfl⟩ := namesMark
      have found := Array.getElem?_eq_getElem (knows mark rfl)
      exact .mark ((enact_mark_kept found).trans found.symm)
    · exact .plain fun mark isMark => namesMark ⟨mark, isMark⟩
  rw [step_eq_enact stillHandle stillCursor, deed_congr sameView samePosition sameRequest]

theorem stepTwice_eq_enact (sound : session.Sound origin) (tied : session.Tied)
    (operation : Operation) {otherOperation : Operation} (knows : session.Knows otherOperation) :
    let one := session.enact first handle (session.deed handle operation)
    let two := one.1.enact second other (session.deed other otherOperation)
    session.stepTwice (first, operation) (second, otherOperation) = some (two.1, one.2, two.2) := by
  intro one two
  have taken : session.step first operation = some one :=
    step_eq_enact isHandle (sound.handles handle (Array.mem_of_getElem? isHandle)) operation
  have takenNext : one.1.step second otherOperation = some two :=
    step_after_enact isHandle isOther apart sound tied operation knows
  rw [stepTwice, taken]
  show (do let (last, secondOutcome) ← one.1.step second otherOperation; _) = _
  rw [takenNext]
  rfl

end Apart

/-! ## Two deeds in either order -/

section TwoDeeds

variable {recorders more : Array Nat} {here otherHere : Nat} {rebased otherRebased : Option Nat}

private theorem restart_append (inside : ∀ recorder ∈ rebased, recorder < recorders.size) :
    restart (recorders ++ more) here rebased = restart recorders here rebased ++ more := by
  cases rebased with
  | none => rfl
  | some recorder => exact modify_append (inside recorder rfl)

private theorem restart_comm (apart : ∀ recorder ∈ rebased, otherRebased ≠ some recorder) :
    restart (restart recorders here rebased) otherHere otherRebased =
      restart (restart recorders otherHere otherRebased) here rebased := by
  cases rebased with
  | none => rfl
  | some recorder =>
      cases otherRebased with
      | none => rfl
      | some other => exact modify_comm fun same => apart recorder rfl (congrArg some same.symm)

variable {first second : Nat} {other : Handle} {deed otherDeed : Deed}

/-- The numbers of what two deeds make, in the other order. -/
def exchanging (session : Session) (deed otherDeed : Deed) : Renumbering where
  cursors := exchange session.cursors.size deed.product.cursor?.isSome
    otherDeed.product.cursor?.isSome
  recorders := exchange session.recorders.size (deed.product.recorder? deed.position).isSome
    (otherDeed.product.recorder? otherDeed.position).isSome
  handles := exchange session.handles.size deed.product.makesHandle otherDeed.product.makesHandle
  marks := exchange session.marks.size (deed.product.mark? deed.position).isSome
    (otherDeed.product.mark? otherDeed.position).isSome

theorem exchanging_fixes : (session.exchanging deed otherDeed).Fixes session where
  cursors _ below := exchange_of_lt below _ _
  recorders _ below := exchange_of_lt below _ _
  handles _ below := exchange_of_lt below _ _
  marks _ below := exchange_of_lt below _ _

theorem cursors_exchanged (hasCursor : handle.stack.cursor < session.cursors.size)
    (hasOther : other.stack.cursor < session.cursors.size)
    (apart : handle.stack.cursor ≠ other.stack.cursor) (index : Nat) :
    ((session.enact second other otherDeed).1.enact first handle deed).1.cursors[
        (session.exchanging deed otherDeed).cursors index]? =
      ((session.enact first handle deed).1.enact second other otherDeed).1.cursors[index]? := by
  simp only [enact_cursors]
  rw [modify_append (by simpa using hasCursor), modify_append (by simpa using hasOther),
    modify_comm (Ne.symm apart)]
  have exchanged := getElem?_exchange
    ((session.cursors.modify handle.stack.cursor fun cursor =>
      { cursor with position := deed.position }).modify other.stack.cursor fun cursor =>
        { cursor with position := otherDeed.position })
    deed.product.cursor? otherDeed.product.cursor? index
  rw [Array.size_modify, Array.size_modify] at exchanged
  exact exchanged

theorem recorders_exchanged
    (inside : ∀ recorder ∈ deed.product.rebased?, recorder < session.recorders.size)
    (otherInside : ∀ recorder ∈ otherDeed.product.rebased?, recorder < session.recorders.size)
    (apart : ∀ recorder ∈ otherDeed.product.rebased?, deed.product.rebased? ≠ some recorder)
    (index : Nat) :
    ((session.enact second other otherDeed).1.enact first handle deed).1.recorders[
        (session.exchanging deed otherDeed).recorders index]? =
      ((session.enact first handle deed).1.enact second other otherDeed).1.recorders[index]? := by
  simp only [enact_recorders]
  rw [restart_append (by simpa [size_restart] using inside),
    restart_append (by simpa [size_restart] using otherInside), restart_comm apart]
  have exchanged := getElem?_exchange
    (restart (restart session.recorders deed.position deed.product.rebased?) otherDeed.position
      otherDeed.product.rebased?)
    (deed.product.recorder? deed.position) (otherDeed.product.recorder? otherDeed.position) index
  rw [size_restart, size_restart] at exchanged
  exact exchanged

theorem marks_exchanged (index : Nat) :
    ((session.enact second other otherDeed).1.enact first handle deed).1.marks[
        (session.exchanging deed otherDeed).marks index]? =
      ((session.enact first handle deed).1.enact second other otherDeed).1.marks[index]? :=
  getElem?_exchange session.marks _ _ index

section Fixes

variable (fixes : numbers.Fixes session) (sound : session.Sound origin) (tied : session.Tied)

include fixes sound

theorem Renumbering.Fixes.cursor_eq (member : handle ∈ session.handles) :
    numbers.cursors handle.stack.cursor = handle.stack.cursor :=
  fixes.cursors _ (sound.handles handle member)

omit sound in
include tied in
theorem Renumbering.Fixes.recorder_eq (member : handle ∈ session.handles) {recorder : Nat}
    (inLayers : .recorder recorder ∈ handle.stack.layers) :
    numbers.recorders recorder = recorder :=
  fixes.recorders _ (tied handle member recorder inLayers).lt_size

include tied in
/-- Handles that are there already keep their numbers, also when they are noted to be exhausted. -/
theorem Renumbering.Fixes.map_renumber {handles : Array Handle}
    (known : ∀ kept ∈ handles, ∃ old ∈ session.handles, kept.stack = old.stack) :
    handles.map (Handle.renumber numbers.cursors numbers.recorders) = handles := by
  apply Array.ext_getElem?
  intro index
  rw [Array.getElem?_map]
  cases found : handles[index]? with
  | none => rfl
  | some kept =>
      obtain ⟨old, member, sameStack⟩ := known kept (Array.mem_of_getElem? found)
      have fixed : kept.renumber numbers.cursors numbers.recorders = kept := by
        apply Handle.renumber_eq_self
        · rw [sameStack, fixes.cursor_eq sound member]
        · intro recorder inLayers
          rw [sameStack] at inLayers
          exact fixes.recorder_eq tied member inLayers
      exact congrArg some fixed

end Fixes

theorem exists_of_mem_modify {handles : Array Handle} {exhausted : Bool} {kept : Handle}
    (member : kept ∈ handles.modify first (settled exhausted)) :
    ∃ old ∈ handles, kept.stack = old.stack := by
  obtain ⟨index, found⟩ := Array.mem_iff_getElem?.mp member
  rw [Array.getElem?_modify] at found
  split at found
  · obtain ⟨old, isOld, rfl⟩ := Option.map_eq_some_iff.mp found
    refine ⟨old, Array.mem_of_getElem? isOld, ?_⟩
    cases old with
    | _ => rfl
  · exact ⟨kept, Array.mem_of_getElem? found, rfl⟩

theorem handles_exchanged (sound : session.Sound origin) (tied : session.Tied)
    (isHandle : session.handles[first]? = some handle)
    (isOther : session.handles[second]? = some other) (different : first ≠ second)
    {otherOperation : Operation} (fits : deed.product.Fits handle operation)
    (otherFits : otherDeed.product.Fits other otherOperation) (index : Nat) :
    ((session.enact second other otherDeed).1.enact first handle deed).1.handles[
        (session.exchanging deed otherDeed).handles index]? =
      ((session.enact first handle deed).1.enact second other otherDeed).1.handles[index]?.map
        (Handle.renumber (session.exchanging deed otherDeed).cursors
          (session.exchanging deed otherDeed).recorders) := by
  have inside := (Array.getElem?_eq_some_iff.mp isHandle).1
  have otherInside := (Array.getElem?_eq_some_iff.mp isOther).1
  have fixes := @exchanging_fixes session deed otherDeed
  let numbers := session.exchanging deed otherDeed
  let items := (session.handles.modify first (settled deed.exhausted)).modify second
    (settled otherDeed.exhausted)
  have itemsFixed : items.map (Handle.renumber numbers.cursors numbers.recorders) = items := by
    apply fixes.map_renumber sound tied
    intro kept member
    obtain ⟨middle, isMiddle, sameStack⟩ := exists_of_mem_modify member
    obtain ⟨old, isOld, oldStack⟩ := exists_of_mem_modify isMiddle
    exact ⟨old, isOld, sameStack.trans oldStack⟩
  -- What each deed makes has its number from the order in which the two are carried out.
  let made := deed.product.handle? handle.stack session.cursors.size session.recorders.size
  let otherMade := otherDeed.product.handle? other.stack
    (session.cursors.size + deed.product.cursor?.isSome.toNat)
    (session.recorders.size + (deed.product.recorder? deed.position).isSome.toNat)
  have madeLater : deed.product.handle? handle.stack
      (session.cursors.size + otherDeed.product.cursor?.isSome.toNat)
      (session.recorders.size + (otherDeed.product.recorder? otherDeed.position).isSome.toNat) =
      made.map (Handle.renumber numbers.cursors numbers.recorders) := by
    have member := Array.mem_of_getElem? isHandle
    exact fits.handle?_eq deed.position (fixes.cursor_eq sound member)
      (fun recorder inLayers => fixes.recorder_eq tied member inLayers)
      (fun makes => exchange_first makes _ _) fun makes => exchange_first makes _ _
  have otherMadeFirst : otherDeed.product.handle? other.stack session.cursors.size
      session.recorders.size =
        otherMade.map (Handle.renumber numbers.cursors numbers.recorders) := by
    have member := Array.mem_of_getElem? isOther
    exact otherFits.handle?_eq otherDeed.position (fixes.cursor_eq sound member)
      (fun recorder inLayers => fixes.recorder_eq tied member inLayers)
      (fun makes => exchange_second makes _ _) fun makes => exchange_second makes _ _
  have exchanged := getElem?_exchange_map itemsFixed made otherMade index
  rw [Product.isSome_handle?, Product.isSome_handle?, Array.size_modify, Array.size_modify]
    at exchanged
  simp only [enact_handles, size_enact_cursors, size_enact_recorders]
  rw [modify_append (by simpa using inside), modify_append (by simpa using otherInside),
    modify_comm (Ne.symm different), madeLater, otherMadeFirst]
  exact exchanged

end TwoDeeds

/-! ## Independence -/

theorem Tied.lt_size_of_rebased? (tied : session.Tied) (member : handle ∈ session.handles)
    {recorder : Nat}
    (rebased : (session.deed handle operation).product.rebased? = some recorder) :
    .recorder recorder ∈ handle.stack.layers ∧ recorder < session.recorders.size := by
  obtain ⟨-, cursor, inner, rfl⟩ := (session.deed_fits handle operation).of_rebased? rebased
  have outermost : LayerRef.recorder recorder ∈ LayerRef.recorder recorder :: inner :=
    List.mem_cons_self ..
  exact ⟨outermost, (tied _ member recorder outermost).lt_size⟩

/-- Steps on different cursors lead in either order to the same session and show the same, up to
the numbers of what they make. -/
theorem Sound.steps_commute {first second : Nat} {other : Handle} {otherOperation : Operation}
    (sound : session.Sound origin) (tied : session.Tied)
    (isHandle : session.handles[first]? = some handle)
    (isOther : session.handles[second]? = some other)
    (apart : handle.stack.cursor ≠ other.stack.cursor) (knows : session.Knows operation)
    (otherKnows : session.Knows otherOperation) :
    ∃ (one another : Session) (outcome otherOutcome : Outcome) (numbers : Renumbering),
      session.stepTwice (first, operation) (second, otherOperation) =
        some (one, outcome, otherOutcome) ∧
      session.stepTwice (second, otherOperation) (first, operation) =
        some (another, otherOutcome.renumber numbers.handles numbers.marks,
          outcome.renumber numbers.handles numbers.marks) ∧
      numbers.Fixes session ∧ SameUpTo numbers one another := by
  let deed := session.deed handle operation
  let otherDeed := session.deed other otherOperation
  let numbers := session.exchanging deed otherDeed
  have member := Array.mem_of_getElem? isHandle
  have otherMember := Array.mem_of_getElem? isOther
  have hasCursor := sound.handles handle member
  have hasOther := sound.handles other otherMember
  have same : SameUpTo numbers ((session.enact first handle deed).1.enact second other otherDeed).1
      ((session.enact second other otherDeed).1.enact first handle deed).1 :=
    { cursors := cursors_exchanged hasCursor hasOther apart
      recorders := by
        apply recorders_exchanged
        · exact fun recorder rebased => (tied.lt_size_of_rebased? member rebased).2
        · exact fun recorder rebased => (tied.lt_size_of_rebased? otherMember rebased).2
        · intro recorder rebased
          obtain ⟨inLayers, -⟩ := tied.lt_size_of_rebased? otherMember rebased
          exact Tied.rebased?_ne isHandle isOther apart tied operation inLayers
      handles := handles_exchanged sound tied isHandle isOther (ne_of_apart isHandle isOther apart)
        (session.deed_fits handle operation) (session.deed_fits other otherOperation)
      marks := marks_exchanged }
  have outcomeLater : ((session.enact second other otherDeed).1.enact first handle deed).2 =
      (session.enact first handle deed).2.renumber numbers.handles numbers.marks := by
    apply enact_outcome_eq (session.deed_fits handle operation)
    · intro makes
      rw [size_enact_handles]
      exact exchange_first makes _ _
    · intro makes
      rw [size_enact_marks]
      exact exchange_first makes _ _
  have otherOutcomeFirst : (session.enact second other otherDeed).2 =
      ((session.enact first handle deed).1.enact second other otherDeed).2.renumber
        numbers.handles numbers.marks := by
    apply enact_outcome_eq (session.deed_fits other otherOperation)
    · intro makes
      rw [size_enact_handles]
      exact exchange_second makes _ _
    · intro makes
      rw [size_enact_marks]
      exact exchange_second makes _ _
  refine ⟨_, _, _, _, numbers,
    stepTwice_eq_enact isHandle isOther apart sound tied operation otherKnows, ?_,
    exchanging_fixes, same⟩
  rw [← outcomeLater, ← otherOutcomeFirst]
  exact stepTwice_eq_enact isOther isHandle (Ne.symm apart) sound tied otherOperation knows

/-- **Cursors are independent.** Over every accepted buffer and after every run of steps: a step
moves no cursor but the one beneath its handle, moves the start of no recorder but by a rebase of
that very recorder, and notes of no splitter but its own handle that it is exhausted. Two steps on
handles over different cursors, which name no mark that is yet to be made, can be taken in either
order. Both show the same and both lead to the same session, up to the numbers of what they
make. -/
theorem cursors_are_independent {mode : Mode} {input : Source.Input} {source : Source}
    (codePoints : ∀ text, input = .text text → ∀ code ∈ text, code ≤ Code.greatest)
    (accepted : Source.ofInput mode input = .ok source) (steps : List (Nat × Operation)) :
    let session := (start source).after steps
    (∀ index handle operation next outcome, session.handles[index]? = some handle →
      session.step index operation = some (next, outcome) →
      Spares index handle operation session next) ∧
    ∀ first second handle other operation otherOperation,
      session.handles[first]? = some handle → session.handles[second]? = some other →
      handle.stack.cursor ≠ other.stack.cursor → session.Knows operation →
      session.Knows otherOperation →
      ∃ (one another : Session) (outcome otherOutcome : Outcome) (numbers : Renumbering),
        session.stepTwice (first, operation) (second, otherOperation) =
          some (one, outcome, otherOutcome) ∧
        session.stepTwice (second, otherOperation) (first, operation) =
          some (another, otherOutcome.renumber numbers.handles numbers.marks,
            outcome.renumber numbers.handles numbers.marks) ∧
        numbers.Fixes session ∧ SameUpTo numbers one another := by
  intro session
  have started := start_sound (Source.wellFormed_ofInput codePoints accepted)
  have sound : session.Sound source := (started.after_onward steps).sound
  have tied : session.Tied := (start_tied source).after started steps
  constructor
  · intro index handle operation next outcome isHandle taken
    exact sound.step_spares isHandle taken
  · intro first second handle other operation otherOperation isHandle isOther apart knows otherKnows
    exact sound.steps_commute tied isHandle isOther apart knows otherKnows

/-- The splitter of `a,b` hands out its last segment, and the first segment is recorded. -/
theorem cursors_are_independent_split :
    let source : Source := .ofBytes [0x61, 0x2C, 0x62]
    let session := (start source).after [(0, .splitOn (.literal (.bytes [0x2C]))), (1, .next)]
    session.cursors = #[⟨source, 2⟩, ⟨source.narrowed 0 1, 0⟩] ∧
      ∃ (one another : Session) (outcome otherOutcome : Outcome) (numbers : Renumbering),
        session.stepTwice (1, .next) (2, .record) = some (one, outcome, otherOutcome) ∧
        session.stepTwice (2, .record) (1, .next) =
          some (another, otherOutcome.renumber numbers.handles numbers.marks,
            outcome.renumber numbers.handles numbers.marks) ∧
        SameUpTo numbers one another := by
  intro source session
  have accepted : Source.ofInput .bytes (.bytes [0x61, 0x2C, 0x62]) = .ok source := rfl
  have isSplitter : session.handles[1]? =
      some (.splitter ⟨0, []⟩ (.literal (.bytes [0x2C])) false) := rfl
  have isSegment : session.handles[2]? = some (.cursor ⟨1, []⟩) := rfl
  obtain ⟨one, another, outcome, otherOutcome, numbers, oneWay, otherWay, -, same⟩ :=
    (cursors_are_independent (by rintro text ⟨⟩) accepted _).2 1 2 _ _ .next .record isSplitter
      isSegment (by decide) nofun nofun
  exact ⟨by decide +kernel, one, another, outcome, otherOutcome, numbers, oneWay, otherWay, same⟩

end Session

end RecordScan
