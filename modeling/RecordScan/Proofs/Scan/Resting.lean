import RecordScan.Proofs.Scan.Segments

/-!
Contract: where scans come to rest.

Owns: scans that end at a place of some kind whenever they begin at one, answered or
refused (`Scan.Rests`), with a rule for each way of sequencing; the place where taking a
unit through layers ends, which is right behind that unit (`View.advanceThrough_lands`);
conditional steps and their runs, which rest at such places (`View.Behind`); and what is
made of a recording, which rests anywhere.

Does not own: what a scan answers (`RecordScan.Proofs.Scan.Visible`).

A plain step through an ignoring layer need not rest so: at the end it has skipped what
is ignored there and takes nothing. A conditional step looks first, and then stays.
-/

namespace RecordScan

/-! ## Kinds of places -/

namespace Scan

/-- From a place of this kind a scan ends at one, answered or refused. -/
def Rests {α : Type} (kind : Nat → Prop) (scan : Scan α) : Prop :=
  ∀ position, kind position → kind (scan position).2

namespace Rests

variable {α β : Type} {kind : Nat → Prop}

theorem pure (value : α) : Rests kind (Pure.pure value) :=
  fun _ isKind => isKind

theorem refuse (fault : Fault) : Rests kind (Scan.refuse fault : Scan α) :=
  fun _ isKind => isKind

theorem ofExcept (result : Except Fault α) : Rests kind (Scan.ofExcept result) :=
  fun _ isKind => isKind

theorem bind {scan : Scan α} {next : α → Scan β} (first : Rests kind scan)
    (second : ∀ value, Rests kind (next value)) : Rests kind (scan >>= next) := by
  intro position isKind
  have between := first position isKind
  cases answer : scan position with
  | mk result moved =>
      rw [answer] at between
      cases result with
      | ok value =>
          rw [bind_of_ok answer]
          exact second value moved between
      | error fault =>
          rw [bind_of_error answer]
          exact between

theorem position_bind {next : Nat → Scan β} (second : ∀ place, Rests kind (next place)) :
    Rests kind (Scan.position >>= next) :=
  fun position isKind => second position position isKind

theorem countLoop {step : Scan (Option Code)} (rests : Rests kind step) (rounds count : Nat) :
    Rests kind (Scan.countLoop step rounds count) := by
  induction rounds generalizing count with
  | zero => exact pure count
  | succ rounds inductionHypothesis =>
      refine bind rests fun found => ?_
      cases found with
      | none => exact pure count
      | some unit => exact inductionHypothesis (count + 1)

end Rests

end Scan

namespace View

variable {view : View} {mark position : Nat}

/-! ## Behind a unit -/

/-- A unit that is taken through layers stands right before the place where they stop. -/
theorem advanceThrough_lands {source : Source} {layers : List Layer} {unit : Code} {moved : Nat}
    (placed : PlacedThrough source layers position)
    (taken : advanceThrough source layers position = (.ok (some unit), moved)) :
    ∃ before, position ≤ before ∧ source.Admits before ∧ source.UnitAt before unit ∧
      moved = before + source.mode.unitWidth unit := by
  induction layers generalizing position with
  | nil =>
      rw [advanceThrough] at taken
      rcases Nat.lt_or_eq_of_le placed.1.le_stop with before | atEnd
      · obtain ⟨found, unitAt, answer⟩ := placed.1.advance_of_lt before
        cases answer.symm.trans taken
        exact ⟨position, Nat.le_refl position, placed.1, unitAt, rfl⟩
      · rw [atEnd, source.advance_stop] at taken
        cases taken
  | cons layer inner inductionHypothesis =>
      cases layer with
      | recording start =>
          rw [advanceThrough] at taken
          exact inductionHypothesis placed.inner taken
      | ignoring skipped =>
          -- The run of skipped units ends at a place from which the inner layers take the unit.
          obtain ⟨between, answer, betweenPlaced, forward, -⟩ :=
            (reads_through source inner).countLoop_nextIf (· == skipped) 0 placed.inner
              (Nat.lt_succ_of_le (length_visibleThrough_le placed.inner))
          have skippedTo : skipAndAdvance source skipped (peekThrough source inner)
              (advanceThrough source inner) position = advanceThrough source inner between :=
            Scan.bind_of_ok answer
          rw [advanceThrough, skippedTo] at taken
          obtain ⟨before, onward, landing⟩ := inductionHypothesis betweenPlaced taken
          exact ⟨before, Nat.le_trans forward onward, landing⟩
      | stopped =>
          rw [advanceThrough] at taken
          cases taken

theorem ignoring_not_mem_of_visible {source : Source} {layers : List Layer} {unit : Code}
    (isVisible : unit ∈ visibleThrough source layers position) : .ignoring unit ∉ layers := by
  induction layers with
  | nil => exact List.not_mem_nil
  | cons layer inner inductionHypothesis =>
      cases layer with
      | recording start =>
          have notInner := inductionHypothesis isVisible
          simpa using notInner
      | ignoring other =>
          obtain ⟨inInner, differs⟩ := List.mem_filter.mp isVisible
          have notInner := inductionHypothesis inInner
          simp only [bne_iff_ne, ne_eq] at differs
          simpa [differs] using notInner
      | stopped => cases isVisible

/-- A place of a view from a mark on: the mark, or right behind a unit that no layer ignores. -/
structure Behind (view : View) (mark place : Nat) : Prop where
  placed : view.Placed place
  onward : mark ≤ place
  tight : place = mark ∨ ∃ before unit, mark ≤ before ∧ view.source.Admits before ∧
    view.source.UnitAt before unit ∧ .ignoring unit ∉ view.layers ∧
    place = before + view.source.mode.unitWidth unit

theorem Placed.behind (placed : view.Placed mark) : view.Behind mark mark :=
  ⟨placed, Nat.le_refl mark, .inl rfl⟩

/-- The units from the mark to such a place end with one that no layer ignores. -/
theorem Behind.getLast?_unitsFrom {place : Nat} (behind : view.Behind mark place)
    (markAdmits : view.source.Admits mark) {unit : Code}
    (isLast : ((view.source.narrowed mark place).unitsFrom mark).getLast? = some unit) :
    .ignoring unit ∉ view.layers := by
  rcases behind.tight with rfl | ⟨before, last, onward, beforeAdmits, unitAt, shown, rfl⟩
  · have nothing : (view.source.narrowed place place).unitsFrom place = [] :=
      (view.source.narrowed place place).unitsFrom_stop
    rw [nothing] at isLast
    cases isLast
  · have upTo := markAdmits.unitsFrom_narrowed beforeAdmits onward
    have upToPlace := markAdmits.unitsFrom_narrowed unitAt.admits_next behind.onward
    rw [unitAt.unitsFrom_eq, List.append_cons, upToPlace] at upTo
    rw [List.append_cancel_right upTo, List.getLast?_concat] at isLast
    cases isLast
    exact shown

/-! ## Conditional steps -/

theorem nextWith_rests (test : Code → Bool) :
    Scan.Rests (view.Behind mark) (view.nextWith test) := by
  intro position behind
  have looked := view.reads.peek_eq behind.placed
  have taken := view.reads.advance_leaves behind.placed
  unfold nextWith Scan.nextIf
  rw [Scan.bind_of_ok looked]
  cases isVisible : view.visible position with
  | nil => exact behind
  | cons unit rest =>
      rw [isVisible] at taken
      dsimp only [List.head?_cons]
      split
      · obtain ⟨moved, answer, movedPlaced, forward, -⟩ := taken
        obtain ⟨before, onward, beforeAdmits, unitAt, isMoved⟩ :=
          advanceThrough_lands behind.placed answer
        have shown : .ignoring unit ∉ view.layers :=
          ignoring_not_mem_of_visible (isVisible ▸ List.mem_cons_self ..)
        rw [answer]
        exact ⟨movedPlaced, Nat.le_trans behind.onward forward, .inr ⟨before, unit,
          Nat.le_trans behind.onward onward, beforeAdmits, unitAt, shown, isMoved⟩⟩
      · exact behind

theorem nextIf_rests (pattern : Pattern) :
    Scan.Rests (view.Behind mark) (view.nextIf pattern) :=
  (Scan.Rests.ofExcept _).bind nextWith_rests

theorem countRun_rests (pattern : Pattern) :
    Scan.Rests (view.Behind mark) (view.countRun pattern) := by
  refine (Scan.Rests.ofExcept _).bind fun test => ?_
  refine .position_bind fun place => ?_
  exact (nextWith_rests test).countLoop _ 0

/-! ## Recorded text -/

theorem recordedRange_rests {kind : Nat → Prop} : Scan.Rests kind view.recordedRange := by
  unfold recordedRange
  split
  · exact .refuse _
  · refine .position_bind fun place => ?_
    split
    · exact .refuse _
    · exact .pure _

theorem recordedText_rests {kind : Nat → Prop} : Scan.Rests kind view.recordedText := by
  refine recordedRange_rests.bind fun bounds => ?_
  dsimp only
  split
  · exact .pure _
  · exact .refuse _

theorem recordedInteger_rests {kind : Nat → Prop} : Scan.Rests kind view.recordedInteger := by
  refine recordedText_rests.bind fun text => ?_
  split
  · exact .pure _
  · exact .refuse _
  · exact .refuse _

theorem recordedReal_rests {kind : Nat → Prop} : Scan.Rests kind view.recordedReal := by
  refine recordedText_rests.bind fun text => ?_
  split
  · exact .pure _
  · exact .refuse _

end View

end RecordScan
