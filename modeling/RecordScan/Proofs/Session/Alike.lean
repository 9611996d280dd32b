import RecordScan.Proofs.Scan.Alike
import RecordScan.Proofs.Session.Deed

/-!
Contract: operations by way of views that act alike.

Owns: views that act alike in all that a session asks of them (`View.ActsAlike`); and that an
operation then stands for scans that are alike by way of both (`Session.scanOf_alike`), save
for two requests whose likeness is asked for where they are made: a return to any offset,
and a description.
-/

namespace RecordScan

open Scan (Alike)

/-- Two views of one source that move, search and read lines alike, and of which both or neither
are recordings of the same start. -/
structure View.ActsAlike (placed : Nat → Prop) (first second : View) : Prop
    extends View.MovesAlike placed first second where
  outermost : ∀ start, second.layers.head? = some (.recording start) ↔
    first.layers.head? = some (.recording start)
  consumeUntil : ∀ pattern, Alike placed (first.consumeUntil pattern) (second.consumeUntil pattern)
  keyValues : ∀ delimiter, Alike placed (first.keyValues delimiter) (second.keyValues delimiter)

namespace View

variable {placed : Nat → Prop} {first second : View}

theorem remaining_alike (view : View) : Alike placed view.remaining view.remaining := by
  intro position isPlaced
  obtain ⟨left, answer⟩ := view.remaining_answers position
  rw [answer]
  exact ⟨rfl, isPlaced⟩

theorem ActsAlike.keyValue (alike : ActsAlike placed first second) :
    Alike placed first.keyValue second.keyValue :=
  keyValue_alike alike.source alike.advance alike.consume (alike.consumeUntil _)

end View

namespace Session

variable {placed : Nat → Prop} {first second : View} {operation : Operation}

/-- Only a cursor whose outermost layer is a recording has a start of its own. -/
theorem scanOf_recordStart (session : Session) (view : View) :
    (∃ start, view.layers.head? = some (.recording start) ∧
      session.scanOf view .recordStart = some (pure (.count start))) ∨
    (∀ start, view.layers.head? ≠ some (.recording start)) ∧
      session.scanOf view .recordStart = none := by
  obtain ⟨source, layers⟩ := view
  rcases layers with _ | ⟨start | unit | _, inner⟩
  · exact .inr ⟨nofun, rfl⟩
  · exact .inl ⟨start, rfl, rfl⟩
  · exact .inr ⟨nofun, rfl⟩
  · exact .inr ⟨nofun, rfl⟩

/-- An operation stands for a scan by way of both views or of neither, and the scans are alike. -/
theorem scanOf_alike (session : Session) (alike : View.ActsAlike placed first second)
    (returns : ∀ target, operation = .restore target → ∀ offset : Int,
      Alike placed (first.restore offset) (second.restore offset))
    (describes : operation = .describe → Alike placed first.describe second.describe) :
    Option.Rel (Alike placed) (session.scanOf first operation)
      (session.scanOf second operation) := by
  have sameMode := alike.mode_eq
  cases operation with
  | restore target =>
      cases target with
      | position offset => exact .some ((returns _ rfl offset).map fun _ => _)
      | mark index =>
          simp only [scanOf]
          cases session.marks[index]? with
          | none => exact .none
          | some place => exact .some ((returns _ rfl place).map fun _ => _)
  | describe => exact .some ((describes rfl).map _)
  | recordStart =>
      rcases session.scanOf_recordStart first with ⟨start, isStart, isScan⟩ | ⟨none, isNone⟩
      · rcases session.scanOf_recordStart second with ⟨other, isOther, otherScan⟩ | ⟨none, -⟩
        · cases ((alike.outermost other).mp isOther).symm.trans isStart
          rw [isScan, otherScan]
          exact .some (.pure _)
        · exact absurd ((alike.outermost start).mpr isStart) (none start)
      · rcases session.scanOf_recordStart second with ⟨other, isOther, -⟩ | ⟨-, otherNone⟩
        · exact absurd ((alike.outermost other).mp isOther) (none other)
        · rw [isNone, otherNone]
          exact .none
  | tell => exact .some (.position_bind fun _ _ => .pure _)
  | remaining =>
      simp only [scanOf, alike.remaining]
      exact .some (first.remaining_alike.map _)
  | atEnd => exact .some (alike.atEnd.map _)
  | peekLength needed => exact .some ((alike.peekLength needed).map _)
  | recordingStart =>
      simp only [scanOf, alike.recordingStart]
      exact .some (.pure _)
  | boundStart | boundEnd | data =>
      simp only [scanOf, alike.source]
      exact .some (.pure _)
  | isText =>
      simp only [scanOf, sameMode]
      exact .some (.pure _)
  | peek =>
      simp only [scanOf, sameMode]
      exact .some (alike.peek.map _)
  | peekAt distance =>
      simp only [scanOf, sameMode]
      exact .some ((alike.peekAt distance).map _)
  | unitOf given | encodeUnit given =>
      simp only [scanOf, sameMode]
      exact .some ((Alike.ofExcept _).map _)
  | advance =>
      simp only [scanOf, sameMode]
      exact .some (alike.advance.map _)
  | nextIf pattern =>
      simp only [scanOf, sameMode]
      exact .some ((alike.nextIf pattern).map _)
  | advanceIf pattern => exact .some ((alike.advanceIf pattern).map _)
  | consumeWhile pattern => exact .some ((alike.consumeWhile pattern).map fun _ => _)
  | consumeClass pattern => exact .some ((alike.consumeClass pattern).map fun _ => _)
  | consumeUnitRun given => exact .some ((alike.consumeWhile (.literal given)).map fun _ => _)
  | consumeUntil pattern => exact .some ((alike.consumeUntil pattern).map fun _ => _)
  | consume => exact .some (alike.consume.map fun _ => _)
  | consumeCount => exact .some (alike.countAll.map _)
  | consumeLength needed => exact .some ((alike.consumeLength needed).map fun _ => _)
  | consumeAtLeast needed => exact .some ((alike.consumeAtLeast needed).map fun _ => _)
  | countRun pattern => exact .some ((alike.countRun pattern).map _)
  | expect pattern => exact .some ((alike.expect pattern).map fun _ => _)
  | expectEnd => exact .some (alike.expectEnd.map fun _ => _)
  | recordedBytes => exact .some (alike.recordedBytes.map _)
  | recordedText => exact .some (alike.recordedText.map _)
  | recordedTextIfValid => exact .some (alike.recordedText?.map _)
  | recordedSpan => exact .some (alike.recordedSpan.map _)
  | restBytes => exact .some ((alike.restBytes alike.consume).map _)
  | restText => exact .some ((alike.restText alike.consume).map _)
  | restTextIfValid => exact .some ((alike.restText? alike.consume).map _)
  | number => exact .some (alike.number.map _)
  | wholeNumber => exact .some (alike.wholeNumber.map _)
  | keyValue => exact .some (alike.keyValue.map _)
  | keyValues delimiter => exact .some ((alike.keyValues delimiter).map _)
  | _ => exact .none

end Session

end RecordScan
