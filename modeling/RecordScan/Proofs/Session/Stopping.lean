import RecordScan.Proofs.Session.Alike
import RecordScan.Proofs.Session.Backtracking
import RecordScan.Proofs.Session.Transparency

/-!
Contract: a stopped layer anywhere in a stack holds the cursor where it is.

Owns: the views with a stopped layer, which act from their position as they do from there
alone (`View.actsAlike_of_stopped`); the one segment into which such a view is split; and the
law that no operation but a return moves the cursor beneath a handle with such a layer.

Beneath the layer a bare source could leap to its end or to a literal. No search gets there:
only recordings hand a leap down, and the stopped layer or an ignoring one above it walks
instead, a step at a time, and each step finds nothing.
-/

namespace RecordScan

open Scan (Alike)

namespace View

variable {view : View} {position : Nat}

/-! ## Views that stay -/

section Stopped

variable (stopped : .stopped ∈ view.layers) (placed : view.Placed position)

include stopped

theorem visible_of_stopped (position : Nat) : view.visible position = [] :=
  visibleThrough_of_stopped stopped position

include placed

theorem peek_of_stopped : view.peek position = (.ok none, position) := by
  rw [view.reads.peek_eq placed, visible_of_stopped stopped]
  rfl

theorem advance_of_stopped : view.advance position = (.ok none, position) := by
  rw [advance_of_spent placed (visible_of_stopped stopped position), finish, if_pos stopped]

/-- From its position a stopped view makes no move. -/
theorem movesAlike_of_stopped : MovesAlike (· = position) view view where
  source := rfl
  recordingStart := rfl
  remaining := rfl
  peek := by
    rintro _ rfl
    exact ⟨rfl, by rw [peek_of_stopped stopped placed]⟩
  advance := by
    rintro _ rfl
    exact ⟨rfl, by rw [advance_of_stopped stopped placed]⟩
  restore := by
    rintro _ rfl _ rfl
    exact ⟨rfl, congrArg Prod.snd (restoreThrough_eq placed _)⟩
  consume := by
    rintro _ rfl
    exact ⟨rfl, by rw [consume_eq placed, finish, if_pos stopped]⟩

theorem consumeUntil_stays (pattern : Pattern) :
    Alike (· = position) (view.consumeUntil pattern) (view.consumeUntil pattern) := by
  rw [consumeUntil_of_stopped stopped]
  exact (movesAlike_of_stopped stopped placed).walkUntil pattern

/-- A call for a segment leaves the parent where it is. -/
theorem nextSegment_stays (delimiter : Pattern) (exhausted : Bool) :
    (view.nextSegment delimiter ⟨position, exhausted⟩).2.position = position := by
  have alike := movesAlike_of_stopped stopped placed
  exact (@nextSegment_alike _ view view delimiter ⟨position, exhausted⟩ rfl alike.advance
    (consumeUntil_stays stopped placed delimiter) rfl).2

theorem sweep_stays {α : Type} (delimiter : Pattern) (visit : View → Scan α) (exhausted : Bool) :
    (view.sweep delimiter visit ⟨position, exhausted⟩).progress.position = position := by
  have alike := movesAlike_of_stopped stopped placed
  have searches := consumeUntil_stays stopped placed delimiter
  refine (@sweep_alike _ view view delimiter ⟨position, exhausted⟩ rfl alike.advance searches α
    visit ?_ rfl).2
  intro progress moved segment isPlaced given
  have same := (nextSegment_alike rfl alike.advance searches isPlaced).1
  rw [given] at same
  have isRelaid : segment = relaid view.layers segment := Except.ok.inj (Prod.mk.inj same).1
  rw [← isRelaid]

theorem actsAlike_of_stopped : ActsAlike (· = position) view view where
  toMovesAlike := movesAlike_of_stopped stopped placed
  outermost := fun _ => Iff.rfl
  consumeUntil := consumeUntil_stays stopped placed
  keyValues := by
    intro delimiter
    apply keyValues_alike rfl
    rintro _ rfl
    exact ⟨rfl, sweep_stays stopped placed delimiter keyValue false⟩

/-- A stopped view is split into one segment, which is empty and where the view stands. -/
theorem handsOut_iff_of_stopped {delimiter : Pattern} {test : Code → Bool}
    (matched : delimiter.test? view.mode = .ok test) {segments : List View} {final : Progress} :
    view.HandsOut delimiter ⟨position, false⟩ segments final ↔
      segments = [view.part position position] ∧ final = ⟨position, true⟩ := by
  have alike := movesAlike_of_stopped stopped placed
  have consumed : view.consumeUntil delimiter position = (.ok (), position) := by
    obtain ⟨moved, walked, -⟩ := walkUntil_leaves matched placed
    rw [consumeUntil_of_stopped stopped, walked]
    have stays : (view.walkUntil delimiter position).2 = position :=
      (alike.walkUntil delimiter position rfl).2
    rw [walked] at stays
    exact congrArg (Prod.mk _) stays
  have given := nextSegment_of_search placed.1 placed.1 (Nat.le_refl position) consumed
    (advance_of_stopped stopped placed)
  constructor
  · intro handsOut
    cases handsOut with
    | done spent => cases given.symm.trans spent
    | next isGiven rest =>
        cases given.symm.trans isGiven
        cases rest with
        | done => exact ⟨rfl, rfl⟩
        | next more => cases more
  · rintro ⟨rfl, rfl⟩
    exact .next given (.done (nextSegment_exhausted _ _ _))

end Stopped

end View

namespace Session

variable {session : Session} {operation : Operation}

/-! ## Deeds that stay -/

theorem Deed.position_ofChecked {α : Type} (here : Nat) (checked : Except Fault α)
    (make : α → Product) : (ofChecked here checked make).position = here := by
  cases checked with
  | ok value => rfl
  | error fault => rfl

/-- Of all that can be asked of a cursor, only scans move it. -/
theorem Deed.position_ofCursor (stack : Stack) (view : View) {here : Nat}
    {scan? : Option (Scan Reply)} (operation : Operation)
    (stays : ∀ scan, scan? = some scan → (scan here).2 = here) :
    (ofCursor stack view here scan? operation).position = here := by
  cases scan? with
  | some scan => exact stays scan rfl
  | none =>
      cases operation with
      | rebase =>
          simp only [ofCursor]
          split
          · rfl
          · rfl
      | splitOn | ignore | bounded | whileUnit => exact position_ofChecked _ _ _
      | _ => rfl

/-- No operation but a return moves the cursor beneath a stopped handle. -/
theorem position_deed_of_stopped {handle : Handle}
    (stopped : .stopped ∈ (session.view handle.stack).layers)
    (placed : (session.view handle.stack).Placed (session.position handle.stack))
    (stays : ∀ target, operation ≠ .restore target) :
    (session.deed handle operation).position = session.position handle.stack := by
  have alike := View.actsAlike_of_stopped stopped placed
  cases handle with
  | cursor stack =>
      have scans := session.scanOf_alike alike
        (fun target isReturn => absurd isReturn (stays target))
        fun _ => .position_bind fun _ _ => .pure _
      refine Deed.position_ofCursor stack _ operation fun scan isScan => ?_
      rw [isScan] at scans
      cases scans with
      | some same => exact (same _ rfl).2
  | run stack pattern =>
      cases operation with
      | consume => exact ((alike.countRun pattern).map Reply.count _ rfl).2
      | consumeAtLeast needed => exact ((alike.countAtLeast pattern needed).map Reply.count _ rfl).2
      | _ => rfl
  | splitter parent delimiter exhausted =>
      cases operation with
      | next => exact View.nextSegment_stays stopped placed delimiter exhausted
      | mapSegments task => exact View.sweep_stays stopped placed delimiter task.visit exhausted
      | forEachSegment task => exact View.sweep_stays stopped placed delimiter task.visit exhausted
      | _ => rfl

/-- **A stop holds the cursor.** Over every accepted buffer and after every run of steps, take any
handle with a stopped layer anywhere in its stack, with its cursor in all recordings of the stack.
No operation by way of it but a return moves that cursor or another. A cursor with such a stack
finds no unit, neither when it looks nor when it takes one. Split at any delimiter that can be read
it is one segment, empty and where the cursor stands, and the splitter is then exhausted. -/
theorem stopped_handles_stay {mode : Mode} {input : Source.Input} {source : Source}
    (codePoints : ∀ text, input = .text text → ∀ code ∈ text, code ≤ Code.greatest)
    (accepted : Source.ofInput mode input = .ok source) (steps : List (Nat × Operation)) :
    let session := (start source).after steps
    ∀ (index : Nat) handle, session.handles[index]? = some handle →
      .stopped ∈ handle.stack.layers →
      (∀ recorder, .recorder recorder ∈ handle.stack.layers → ∃ place,
        session.recorders[recorder]? = some place ∧ place ≤ session.position handle.stack) →
      let view := session.view handle.stack
      let here := session.position handle.stack
      (∀ operation, (∀ target, operation ≠ .restore target) →
        ∃ result, session.step index operation = some result ∧ result.2.position = here ∧
          ∀ (other : Nat) cursor, session.cursors[other]? = some cursor →
            result.1.cursors[other]? = some cursor) ∧
      (handle = .cursor handle.stack →
        session.answer index .peek = some (.reply .nothing) ∧
        session.answer index .advance = some (.reply .nothing)) ∧
      ∀ delimiter test, delimiter.test? mode = .ok test → ∀ segments final,
        view.HandsOut delimiter ⟨here, false⟩ segments final ↔
          segments = [view.part here here] ∧ final = ⟨here, true⟩ := by
  intro session index handle isHandle isStopped reached view here
  have started := start_sound (Source.wellFormed_ofInput codePoints accepted)
  have sound : session.Sound source := (started.after_onward steps).sound
  have hasCursor := sound.handles _ (Array.mem_of_getElem? isHandle)
  have placed : view.Placed here := sound.placed hasCursor reached
  have stopped : .stopped ∈ view.layers := List.mem_map.mpr ⟨.stopped, isStopped, rfl⟩
  have isMode : view.mode = mode :=
    (sound.mode_eq hasCursor).trans (Source.mode_ofInput accepted)
  refine ⟨fun operation forward => ?_, fun isCursor => ?_, fun delimiter test matched => ?_⟩
  · have stays : (session.deed handle operation).position = here :=
      position_deed_of_stopped stopped placed forward
    refine ⟨_, sound.step_eq isHandle operation, stays, fun other cursor found => ?_⟩
    by_cases same : other = handle.stack.cursor
    · subst same
      have stands : here = cursor.position := by simp only [here, position, found]
      rw [enact_cursor_moved found, stays, stands]
    · exact enact_cursor_kept same found
  · rw [isCursor] at isHandle
    exact ⟨reply_of_scanOf isHandle rfl (Scan.bind_of_ok (View.peek_of_stopped stopped placed)),
      reply_of_scanOf isHandle rfl (Scan.bind_of_ok (View.advance_of_stopped stopped placed))⟩
  · rw [← isMode] at matched
    exact fun _ _ => View.handsOut_iff_of_stopped stopped placed matched

/-- A stop between a recorder and ignored blanks, before the second of the bytes `a b;c`. -/
theorem stopped_handles_stay_under_recorder :
    let source : Source := .ofBytes [0x61, 0x20, 0x62, 0x3B, 0x63]
    let delimiter : Pattern := .literal (.integer 0x3B)
    let session := (start source).after
      [(0, .advance), (0, .ignore (.integer 0x20)), (1, .stop), (2, .record)]
    let view : View := ⟨source, [.recording 1, .stopped, .ignoring 0x20]⟩
    session.handles[3]? = some (.cursor ⟨0, [.recorder 0, .stopped, .ignoring 0x20]⟩) ∧
      session.view ⟨0, [.recorder 0, .stopped, .ignoring 0x20]⟩ = view ∧
      (∃ result, session.step 3 (.keyValues delimiter) = some result ∧ result.2.position = 1 ∧
        result.1.cursors[0]? = some ⟨source, 1⟩) ∧
      session.answer 3 .peek = some (.reply .nothing) ∧
      view.HandsOut delimiter ⟨1, false⟩ [view.part 1 1] ⟨1, true⟩ := by
  intro source delimiter session view
  have accepted : Source.ofInput .bytes (.bytes [0x61, 0x20, 0x62, 0x3B, 0x63]) = .ok source := rfl
  have isHandle : session.handles[3]? =
      some (.cursor ⟨0, [.recorder 0, .stopped, .ignoring 0x20]⟩) := rfl
  have isCursor : session.cursors[0]? = some ⟨source, 1⟩ := by decide +kernel
  have here : session.position ⟨0, [.recorder 0, .stopped, .ignoring 0x20]⟩ = 1 := by
    simp only [position, isCursor]
  have reached (recorder : Nat)
      (member : .recorder recorder ∈ [LayerRef.recorder 0, .stopped, .ignoring 0x20]) :
      ∃ place, session.recorders[recorder]? = some place ∧
        place ≤ session.position ⟨0, [.recorder 0, .stopped, .ignoring 0x20]⟩ := by
    obtain rfl : recorder = 0 := by simpa using member
    exact ⟨1, rfl, Nat.le_of_eq here.symm⟩
  obtain ⟨stays, finds, splits⟩ := stopped_handles_stay (by rintro text ⟨⟩) accepted
    [(0, .advance), (0, .ignore (.integer 0x20)), (1, .stop), (2, .record)] 3 _ isHandle
    (by decide) reached
  obtain ⟨result, taken, shown, kept⟩ := stays (.keyValues delimiter) (by rintro target ⟨⟩)
  refine ⟨isHandle, rfl, ⟨result, taken, shown.trans here, kept 0 _ isCursor⟩, (finds rfl).1, ?_⟩
  exact (splits delimiter (· == 0x3B) rfl _ _).mpr ⟨rfl, rfl⟩

end Session

end RecordScan
