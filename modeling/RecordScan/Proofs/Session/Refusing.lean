import RecordScan.Proofs.Scan.Refusing
import RecordScan.Proofs.Session.Looking

/-!
Contract: a step that is refused for what its caller gave leaves the session as it was.

Owns: the operations that check an offset, a literal or an expectation
(`Operation.Checks`); the causes for which each of them is refused (`Session.Rejects`); and
the law that it is refused exactly if there is such a cause, and then changes nothing.

Does not own: the operations that are refused half-way, which are those that count
(`RecordScan.View.consumeLength_refused`).
-/

namespace RecordScan

/-- The operations that check what they are given, or what they find, before they act. -/
def Operation.Checks : Operation → Prop
  | .restore _ | .bounded _ _ | .expect _ | .expectEnd | .nextIf _ | .advanceIf _
  | .consumeWhile _ | .consumeClass _ | .consumeUnitRun _ | .consumeUntil _ | .countRun _
  | .whileUnit _ | .ignore _ | .splitOn _ => True
  | _ => False

namespace Session

variable {session : Session} {stack : Stack} {operation : Operation}

/-! ## Causes -/

/-- The offset a target stands for, unless it is a mark that was never taken. -/
def offset? (session : Session) : Target → Option Int
  | .position offset => some offset
  | .mark index => session.marks[index]?.map Int.ofNat

/-- The causes for which an operation by way of a stack is refused. -/
def Rejects (session : Session) (stack : Stack) (operation : Operation) (fault : Fault) : Prop :=
  let view := session.view stack
  let here := session.position stack
  match operation with
  | .restore target =>
      ∃ offset, session.offset? target = some offset ∧ view.RefusesReturn offset fault
  | .bounded first last => view.source.RefusesBounds first last fault
  | .expect pattern => view.RefusesExpectation pattern here fault
  | .expectEnd =>
      ∃ unit, (view.visible here).head? = some unit ∧
        fault = .unexpected view.mode (some unit) here
  | .consumeUntil pattern => view.RefusesSearch pattern fault
  | .consumeClass pattern =>
      ∃ literal, pattern = .literal literal ∧ fault = .predicateWanted literal
  -- At the end a literal is not looked at.
  | .advanceIf pattern => view.visible here ≠ [] ∧ pattern.test? view.mode = .error fault
  | .nextIf pattern | .consumeWhile pattern | .countRun pattern | .whileUnit pattern
  | .splitOn pattern => pattern.test? view.mode = .error fault
  | .consumeUnitRun literal => (Pattern.literal literal).test? view.mode = .error fault
  | .ignore literal => view.mode.unit? literal = .error fault
  | _ => False

/-! ## Steps that are refused -/

/-- A step is refused only for one of these causes and then changes nothing, and it is refused if
there is such a cause. -/
structure Refuses (session : Session) (stack : Stack) (cause : Fault → Prop)
    (result : Session × Outcome) : Prop where
  unchanged : ∀ {fault}, result.2.answer = .refused fault →
    cause fault ∧ result.1 = session ∧ result.2.position = session.position stack
  refused : ∀ {fault}, cause fault → ∃ other, result.2.answer = .refused other

theorem addChecked_refuses {α : Type} {checked : Except Fault α} {add : α → Session × Nat}
    {cause : Fault → Prop}
    (refusedFor : (Scan.ofExcept checked).RefusedFor (session.position stack) cause) :
    session.Refuses stack cause (session.addChecked stack checked add) := by
  cases checked with
  | ok value =>
      refine ⟨nofun, fun isCause => ?_⟩
      obtain ⟨other, moved, refusal⟩ := refusedFor.refused isCause
      cases refusal
  | error fault =>
      refine ⟨?_, fun _ => ⟨fault, rfl⟩⟩
      rintro other ⟨rfl⟩
      exact ⟨(refusedFor.stays rfl).1, rfl, rfl⟩

theorem scan_refuses {scan : Scan Reply} {cause : Fault → Prop}
    (isScan : session.scanOf (session.view stack) operation = some scan)
    (refusedFor : scan.RefusedFor (session.position stack) cause) :
    session.Refuses stack cause (session.stepCursor stack operation) := by
  cases result : scan (session.position stack) with
  | mk answer moved =>
      have taken : session.stepCursor stack operation = (session.moveTo stack moved,
          ⟨answerOf answer, (session.moveTo stack moved).position stack, none, none,
            eventsOf operation answer⟩) := by
        simp only [stepCursor, isScan, runScan, result]
      rw [taken]
      cases answer with
      | ok reply =>
          constructor
          · rintro fault ⟨⟩
          · intro fault isCause
            obtain ⟨other, last, refusal⟩ := refusedFor.refused isCause
            cases result.symm.trans refusal
      | error fault =>
          obtain ⟨isCause, rfl⟩ := refusedFor.stays result
          rw [moveTo_position]
          refine ⟨?_, fun _ => ⟨fault, rfl⟩⟩
          rintro other ⟨rfl⟩
          exact ⟨isCause, rfl, rfl⟩

theorem scanOf_restore (session : Session) (view : View) (target : Target) :
    session.scanOf view (.restore target) = (session.offset? target).map fun offset =>
      view.restore offset >>= fun _ => pure .nothing := by
  cases target with
  | position offset => rfl
  | mark index =>
      simp only [scanOf, offset?]
      cases session.marks[index]? with
      | none => rfl
      | some place => rfl

theorem restore_refuses (wellFormed : (session.view stack).source.WellFormed) (target : Target) :
    session.Refuses stack (session.Rejects stack (.restore target))
      (session.stepCursor stack (.restore target)) := by
  have isScan := session.scanOf_restore (session.view stack) target
  cases isOffset : session.offset? target with
  | some offset =>
      rw [isOffset, Option.map_some] at isScan
      refine scan_refuses isScan (((View.restore_refusedFor wellFormed offset).map _).congr ?_)
      simp [Rejects, isOffset]
  | none =>
      rw [isOffset, Option.map_none] at isScan
      simp only [stepCursor, isScan]
      constructor
      · rintro fault ⟨⟩
      · rintro fault ⟨offset, found, -⟩
        cases isOffset.symm.trans found

theorem stepCursor_refuses (placed : (session.view stack).Placed (session.position stack))
    (checks : operation.Checks) :
    session.Refuses stack (session.Rejects stack operation)
      (session.stepCursor stack operation) := by
  cases operation with
  | restore target => exact restore_refuses placed.1.toWellFormed target
  | bounded first last =>
      exact addChecked_refuses (View.bounded_refusedFor placed.1.toWellFormed first last)
  | expect pattern => exact scan_refuses rfl ((View.expect_refusedFor pattern placed).map _)
  | expectEnd => exact scan_refuses rfl ((View.expectEnd_refusedFor placed).map _)
  | nextIf pattern => exact scan_refuses rfl ((View.nextIf_refusedFor pattern placed).map _)
  | advanceIf pattern => exact scan_refuses rfl ((View.advanceIf_refusedFor pattern placed).map _)
  | consumeWhile pattern =>
      exact scan_refuses rfl ((View.consumeWhile_refusedFor pattern placed).map _)
  | consumeClass pattern =>
      exact scan_refuses rfl ((View.consumeClass_refusedFor pattern placed).map _)
  | consumeUnitRun literal =>
      exact scan_refuses rfl ((View.consumeWhile_refusedFor (.literal literal) placed).map _)
  | consumeUntil pattern =>
      exact scan_refuses rfl ((View.consumeUntil_refusedFor pattern placed).map _)
  | countRun pattern => exact scan_refuses rfl ((View.countRun_refusedFor pattern placed).map _)
  | whileUnit pattern => exact addChecked_refuses (.ofExcept _)
  | ignore literal => exact addChecked_refuses (.ofExcept _)
  | splitOn pattern => exact addChecked_refuses (.ofExcept _)
  | _ => exact checks.elim

/-- **Rejections change nothing.** Over every accepted buffer, after every run of steps and through
every handle whose cursor lies in all its recordings, an operation that checks an offset, a literal
or an expectation is refused exactly if there is a cause to reject it: an offset outside the bounds,
before the start of a recording at any depth or inside a scalar; a literal that stands for no unit,
or in a leap for no bytes; a literal where a class is wanted; or a unit, or an end, that is not the
expected one. If it is refused it names such a cause, and leaves every position, recorder, mark and
handle as it was. -/
theorem rejections_change_nothing {mode : Mode} {input : Source.Input} {source : Source}
    (codePoints : ∀ text, input = .text text → ∀ code ∈ text, code ≤ Code.greatest)
    (accepted : Source.ofInput mode input = .ok source) (steps : List (Nat × Operation))
    (index : Nat) (stack : Stack) (operation : Operation) (checks : operation.Checks)
    (isHandle : ((start source).after steps).handles[index]? = some (.cursor stack))
    (started : ∀ place, .recording place ∈ (((start source).after steps).view stack).layers →
      place ≤ ((start source).after steps).position stack) :
    let session := (start source).after steps
    ∃ next outcome, session.step index operation = some (next, outcome) ∧
      (∀ fault, outcome.answer = .refused fault →
        session.Rejects stack operation fault ∧ next = session ∧
          outcome.position = session.position stack) ∧
      ((∃ fault, session.Rejects stack operation fault) ↔
        ∃ fault, outcome.answer = .refused fault) := by
  intro session
  have sound : session.Sound source :=
    ((start_sound (Source.wellFormed_ofInput codePoints accepted)).after_onward steps).sound
  have placed : (session.view stack).Placed (session.position stack) :=
    ⟨sound.admits (sound.hasCursor isHandle), started⟩
  have refuses := stepCursor_refuses placed checks
  have taken : session.step index operation = some (session.stepCursor stack operation) := by
    rw [step, isHandle]
    rfl
  refine ⟨_, _, taken, fun fault => refuses.unchanged, ?_, ?_⟩
  · rintro ⟨fault, rejects⟩
    exact refuses.refused rejects
  · rintro ⟨fault, refused⟩
    exact ⟨fault, (refuses.unchanged refused).1⟩

/-- A return to inside the first scalar, by way of a handle that ignores a comma over a recorder
that starts behind that scalar. -/
theorem rejections_change_nothing_beneath_ignored :
    let source : Source := ⟨.text, #[0xC3, 0xA9, 0x2C, 0x62], 0, 4⟩
    let steps : List (Nat × Operation) :=
      [(0, .advance), (0, .record), (1, .ignore (.text [0x2C]))]
    let session := (start source).after steps
    session.recorders = #[2] ∧
      ∃ outcome fault, session.step 2 (.restore (.position 1)) = some (session, outcome) ∧
        outcome.answer = .refused fault := by
  intro source steps session
  have accepted : Source.ofInput .text (.text [0xE9, 0x2C, 0x62]) = .ok source := rfl
  let stack : Stack := ⟨0, [.ignoring 0x2C, .recorder 0]⟩
  have isHandle : session.handles[2]? = some (.cursor stack) := rfl
  have layers : (session.view stack).layers = [.ignoring 0x2C, .recording 2] := by decide +kernel
  have started : ∀ place, .recording place ∈ (session.view stack).layers →
      place ≤ session.position stack := by
    intro place member
    obtain rfl : place = 2 := by simpa [layers] using member
    decide +kernel
  have early : session.Rejects stack (.restore (.position 1)) (.positionBeforeRecording 1 2) :=
    ⟨1, rfl, .before (by simp [layers]) (by decide)⟩
  obtain ⟨next, outcome, taken, unchanged, refused⟩ :=
    rejections_change_nothing (by rintro text ⟨rfl⟩; decide) accepted steps 2 stack
      (.restore (.position 1)) trivial isHandle started
  obtain ⟨fault, isRefused⟩ := refused.mp ⟨_, early⟩
  obtain ⟨-, rfl, -⟩ := unchanged fault isRefused
  exact ⟨by decide +kernel, outcome, fault, taken, isRefused⟩

end Session

end RecordScan
