import RecordScan.Grammar.KeyValue
import RecordScan.Proofs.Scan.Keeping

/-!
Contract: grammars keep to the positions of a source.

Owns: that numbers and key/value lines stop only at positions of the source they
read and are refused only for a benign cause (`Scan.Keeps`), over every view whose
recordings start at boundaries.
-/

namespace RecordScan

open Scan (Keeps)

theorem Number.benign_of_checked {mode : Mode} {kind : NumberKind} {value : NumberValue}
    {fault : Fault} (refused : Number.checked kind value = .error fault) :
    fault.Benign mode := by
  unfold Number.checked at refused
  repeat' split at refused
  all_goals cases refused
  all_goals exact trivial

namespace View

variable {view : View} {floor : Nat}

/-! ## Numbers -/

theorem Anchored.recordedInteger_keeps (anchored : view.Anchored) :
    Keeps view.source floor view.recordedInteger := by
  refine anchored.recordedText_keeps.bind fun text => ?_
  split
  · exact .pure _
  · exact .refuse trivial
  · exact .refuse trivial

theorem Anchored.recordedReal_keeps (anchored : view.Anchored) :
    Keeps view.source floor view.recordedReal := by
  refine anchored.recordedText_keeps.bind fun text => ?_
  split
  · exact .pure _
  · exact .refuse trivial

theorem Anchored.number_keeps (anchored : view.Anchored) : Keeps view.source floor view.number := by
  refine .position_bind fun mark admits => ?_
  have recording := anchored.recordFrom admits.boundary
  have checkedKeeps (kind : NumberKind) (value : NumberValue) : Keeps view.source floor
      (Scan.ofExcept (Number.checked kind value) >>= fun number => Pure.pure (some number)) :=
    .ofExcept_bind (fun _ => Number.benign_of_checked) fun _ _ => .pure _
  refine ((view.recordFrom mark).nextIf_keeps _).bind fun sign => ?_
  refine ((view.recordFrom mark).countRun_keeps _).bind fun count => ?_
  split
  · exact (view.restore_keeps admits).map fun _ => none
  · refine ((view.recordFrom mark).nextIf_keeps _).bind fun point => ?_
    cases point with
    | none => exact recording.recordedInteger_keeps.bind fun value => checkedKeeps _ _
    | some _ =>
        refine ((view.recordFrom mark).consumeWhile_keeps _).bind fun _ => ?_
        exact recording.recordedReal_keeps.bind fun value => checkedKeeps _ _

theorem Anchored.wholeNumber_keeps (anchored : view.Anchored) :
    Keeps view.source floor view.wholeNumber := by
  refine .position_bind fun start _ => ?_
  refine anchored.number_keeps.bind fun found => ?_
  cases found with
  | none => exact .refuse trivial
  | some number => exact view.expectEnd_keeps.map fun _ => number

/-! ## Key/value lines -/

theorem Anchored.keyValue_keeps (anchored : view.Anchored) :
    Keeps view.source floor view.keyValue := by
  refine .ofExcept_bind (fun _ => Span.benign_of_checked) fun span _ => ?_
  refine anchored.record_bind fun keyStart keyRecording => ?_
  refine ((view.recordFrom keyStart).consumeUntil_keeps _).bind fun _ => ?_
  refine keyRecording.recordedText_keeps.bind fun key => ?_
  refine view.advance_keeps.bind fun colon => ?_
  cases colon with
  | none => exact .pure _
  | some _ =>
      refine anchored.record_bind fun valueStart valueRecording => ?_
      exact valueRecording.restText_keeps.map _

theorem keyValues_keeps (view : View) (delimiter : Pattern) :
    Keeps view.source floor (view.keyValues delimiter) := by
  intro position admits
  unfold keyValues
  split
  · next refusal => exact .error admits (Pattern.benign_of_test? refusal)
  · have kept := sweep_keeps delimiter keyValue
      (fun start stop => (view.part_anchored start stop).keyValue_keeps)
      ⟨position, false⟩ admits
    dsimp only
    split
    · exact .ok kept.admits
    · next fault isFault => exact .error kept.admits (kept.benign fault isFault)

end View

end RecordScan
