import RecordScan.Proofs.Scan.Segments

/-!
Contract: where the segments of a view lie.

Owns: rows of segments between two positions, none of which reaches into the next
(`View.Ordered`); that a segment lies between the positions before and after it is
handed out; and the segments a sweep applies its function to (`View.visited`), with
what the sweep answers for them.

A sweep ends at the first segment its function refuses, and that segment has been
handed out as well. The results of a sweep alone do not show it.
-/

namespace RecordScan.View

variable {view segment : View} {delimiter : Pattern} {progress moved : Progress}
  {low middle high : Nat} {segments others : List View}

/-! ## Rows of segments -/

/-- Segments one after another from a position to another. -/
def Ordered : (low : Nat) → List View → (high : Nat) → Prop
  | low, [], high => low ≤ high
  | low, segment :: segments, high =>
      low ≤ segment.source.start ∧ segment.source.start ≤ segment.source.stop ∧
        Ordered segment.source.stop segments high

namespace Ordered

theorem le (ordered : Ordered low segments high) : low ≤ high := by
  induction segments generalizing low with
  | nil => exact ordered
  | cons segment segments inductionHypothesis =>
      obtain ⟨after, forward, rest⟩ := ordered
      exact Nat.le_trans after (Nat.le_trans forward (inductionHypothesis rest))

theorem of_le (ordered : Ordered middle segments high) (le : low ≤ middle) :
    Ordered low segments high := by
  cases segments with
  | nil => exact Nat.le_trans le ordered
  | cons segment segments =>
      obtain ⟨after, rest⟩ := ordered
      exact ⟨Nat.le_trans le after, rest⟩

theorem append (first : Ordered low segments middle) (second : Ordered middle others high) :
    Ordered low (segments ++ others) high := by
  induction segments generalizing low with
  | nil => exact second.of_le first
  | cons segment segments inductionHypothesis =>
      obtain ⟨after, forward, rest⟩ := first
      exact ⟨after, forward, inductionHypothesis rest⟩

theorem mem (ordered : Ordered low segments high) (member : segment ∈ segments) :
    low ≤ segment.source.start ∧ segment.source.start ≤ segment.source.stop := by
  induction segments generalizing low with
  | nil => cases member
  | cons first segments inductionHypothesis =>
      obtain ⟨after, forward, rest⟩ := ordered
      rcases List.mem_cons.mp member with rfl | isLater
      · exact ⟨after, forward⟩
      · obtain ⟨later, laterForward⟩ := inductionHypothesis rest isLater
        exact ⟨Nat.le_trans after (Nat.le_trans forward later), laterForward⟩

/-- Of two segments of a row, the earlier ends at or before the start of the later. -/
theorem pairwise (ordered : Ordered low segments high) :
    segments.Pairwise fun previous next => previous.source.stop ≤ next.source.start := by
  induction segments generalizing low with
  | nil => exact .nil
  | cons segment segments inductionHypothesis =>
      obtain ⟨-, -, rest⟩ := ordered
      exact .cons (fun next isLater => (rest.mem isLater).1) (inductionHypothesis rest)

end Ordered

/-! ## One segment -/

/-- A segment starts at the position, and the parent stands at or past its end. -/
theorem nextSegment_ordered (admits : view.source.Admits progress.position)
    (given : view.nextSegment delimiter progress = (.ok segment, moved)) :
    Ordered progress.position [segment] moved.position ∧ view.source.Admits moved.position := by
  unfold nextSegment at given
  split at given
  · cases given
  · obtain ⟨lastAdmits, -⟩ := view.consumeUntil_keeps delimiter _ admits.fromSelf
    split at given
    · cases given
    · next last consumed =>
        rw [consumed] at lastAdmits
        obtain ⟨movedAdmits, -⟩ := view.advance_keeps last lastAdmits.toAdmits.fromSelf
        split at given
        · cases given
        · next taken =>
            rw [taken] at movedAdmits
            have forward := lastAdmits.floor_le
            rw [bounded, admits.bounded_eq lastAdmits.toAdmits forward] at given
            cases given
            exact ⟨⟨Nat.le_refl _, forward, movedAdmits.floor_le⟩, movedAdmits.toAdmits⟩

/-! ## Sweeps -/

section Sweeps

variable {α : Type} {visit : View → Scan α}

/-- The segments that a function is applied to, in order, of which the last may be refused. -/
def visitedLoop (view : View) (delimiter : Pattern) (visit : View → Scan α) :
    (rounds : Nat) → Progress → List View
  | 0, _ => []
  | rounds + 1, progress =>
      match view.nextSegment delimiter progress with
      | (.error _, _) => []
      | (.ok segment, progress) =>
          match (visit segment segment.source.start).1 with
          | .error _ => [segment]
          | .ok _ => segment :: visitedLoop view delimiter visit rounds progress

/-- The segments that a sweep applies its function to. -/
def visited (view : View) (delimiter : Pattern) (visit : View → Scan α) (progress : Progress) :
    List View :=
  visitedLoop view delimiter visit (view.source.stop - progress.position + 2) progress

theorem sweepLoop_results (rounds : Nat) (results : Array α) (progress : Progress) :
    (view.sweepLoop delimiter visit rounds results progress).results =
      results.toList ++ (view.visitedLoop delimiter visit rounds progress).filterMap
        fun segment => (visit segment segment.source.start).1.toOption := by
  induction rounds generalizing results progress with
  | zero => simp [sweepLoop, visitedLoop]
  | succ rounds inductionHypothesis =>
      rw [sweepLoop, visitedLoop]
      split
      · next given => simp [given]
      · next given => simp [given]
      · next segment moved given =>
          rw [given]
          cases answer : (visit segment segment.source.start).1 with
          | error fault => simp [answer, Except.toOption]
          | ok result => simp [answer, Except.toOption, inductionHypothesis]

/-- The results of a sweep are what its function answers on the segments it is applied to. -/
theorem sweep_results (view : View) (delimiter : Pattern) (visit : View → Scan α)
    (progress : Progress) :
    (view.sweep delimiter visit progress).results =
      (view.visited delimiter visit progress).filterMap
        fun segment => (visit segment segment.source.start).1.toOption := by
  rw [sweep, sweepLoop_results, visited]
  rfl

theorem visitedLoop_ordered (rounds : Nat) (results : Array α)
    (admits : view.source.Admits progress.position) :
    Ordered progress.position (view.visitedLoop delimiter visit rounds progress)
      (view.sweepLoop delimiter visit rounds results progress).progress.position := by
  induction rounds generalizing results progress with
  | zero => exact Nat.le_refl _
  | succ rounds inductionHypothesis =>
      obtain ⟨moved, movedAdmits, ⟨start, stop, -, given⟩ | ⟨fault, -, given⟩⟩ :=
        nextSegment_cases delimiter progress admits.fromSelf
      · obtain ⟨ordered, laterAdmits⟩ := nextSegment_ordered admits given
        simp only [sweepLoop, visitedLoop, given]
        cases (visit (view.part start stop) (view.part start stop).source.start).1 with
        | error fault => exact ordered
        | ok result =>
            exact ordered.append (inductionHypothesis (results.push result) laterAdmits)
      · have forward := movedAdmits.floor_le
        simp only [sweepLoop, visitedLoop, given]
        cases fault with
        | exhausted => exact forward
        | _ => exact forward

/-- A sweep hands out its segments in order, and leaves the parent at or past the last of them. -/
theorem visited_ordered (view : View) (delimiter : Pattern) (visit : View → Scan α)
    (progress : Progress) (admits : view.source.Admits progress.position) :
    Ordered progress.position (view.visited delimiter visit progress)
      (view.sweep delimiter visit progress).progress.position :=
  visitedLoop_ordered _ #[] admits

end Sweeps

end RecordScan.View
