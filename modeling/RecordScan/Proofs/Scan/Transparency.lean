import RecordScan.Grammar.KeyValue
import RecordScan.Proofs.Scan.Position

/-!
Contract: a recording does not show in what is done through it.

Owns: that every move, consumer, splitter and grammar does over a recording what it does
over the view beneath. The primitive moves and all that is made of them are the same
scans; what returns to where it began is the same from every position at or past the start
of the recording, since a recording refuses only the way back to before its start.

One operation is not passed on: a view whose outermost layer is stopped has nothing
remaining, and a recording of it counts the bytes of the source
(`View.remaining_recordFrom_iff`).
-/

namespace RecordScan

/-- From a position where two scans do the same, so does what follows them. -/
theorem Scan.bind_congr_at {α β : Type} {first second : Scan α} {position : Nat}
    (same : first position = second position) (next : α → Scan β) :
    (first >>= next) position = (second >>= next) position := by
  simp only [Bind.bind, same]

namespace View

variable (view : View) (start : Nat)

/-! ## Moves -/

@[simp] theorem mode_recordFrom : (view.recordFrom start).mode = view.mode :=
  rfl

@[simp] theorem peek_recordFrom : (view.recordFrom start).peek = view.peek := by
  simp only [peek, recordFrom, peekThrough]

@[simp] theorem advance_recordFrom : (view.recordFrom start).advance = view.advance := by
  simp only [advance, recordFrom, advanceThrough]

@[simp] theorem test_recordFrom (pattern : Pattern) :
    (view.recordFrom start).test pattern = view.test pattern :=
  rfl

@[simp] theorem bounded_recordFrom (first last : Int) :
    (view.recordFrom start).bounded first last = view.bounded first last :=
  rfl

theorem restore_recordFrom {target : Int} (started : start ≤ target) :
    (view.recordFrom start).restore target = view.restore target :=
  if_neg (Int.not_lt.mpr started)

/-! ## Runs -/

@[simp] theorem nextWith_recordFrom (test : Code → Bool) :
    (view.recordFrom start).nextWith test = view.nextWith test := by
  simp only [nextWith, peek_recordFrom, advance_recordFrom]

@[simp] theorem countWith_recordFrom (test : Code → Bool) :
    (view.recordFrom start).countWith test = view.countWith test := by
  simp only [countWith, nextWith_recordFrom]
  rfl

@[simp] theorem walkUntil_recordFrom (pattern : Pattern) :
    (view.recordFrom start).walkUntil pattern = view.walkUntil pattern := by
  simp only [walkUntil, test_recordFrom, countWith_recordFrom]

@[simp] theorem countAll_recordFrom : (view.recordFrom start).countAll = view.countAll := by
  simp only [countAll, advance_recordFrom]
  rfl

@[simp] theorem consumeUntil_recordFrom (pattern : Pattern) :
    (view.recordFrom start).consumeUntil pattern = view.consumeUntil pattern :=
  rfl

@[simp] theorem consume_recordFrom : (view.recordFrom start).consume = view.consume :=
  rfl

/-! ## Consumers -/

@[simp] theorem atEnd_recordFrom : (view.recordFrom start).atEnd = view.atEnd := by
  simp only [atEnd, peek_recordFrom]

@[simp] theorem nextIf_recordFrom (pattern : Pattern) :
    (view.recordFrom start).nextIf pattern = view.nextIf pattern := by
  simp only [nextIf, test_recordFrom, nextWith_recordFrom]

@[simp] theorem advanceIf_recordFrom (pattern : Pattern) :
    (view.recordFrom start).advanceIf pattern = view.advanceIf pattern := by
  simp only [advanceIf, peek_recordFrom, nextIf_recordFrom]

@[simp] theorem countRun_recordFrom (pattern : Pattern) :
    (view.recordFrom start).countRun pattern = view.countRun pattern := by
  simp only [countRun, test_recordFrom, countWith_recordFrom]

@[simp] theorem countAtLeast_recordFrom (pattern : Pattern) (needed : Int) :
    (view.recordFrom start).countAtLeast pattern needed = view.countAtLeast pattern needed := by
  simp only [countAtLeast, countRun_recordFrom]

@[simp] theorem consumeWhile_recordFrom (pattern : Pattern) :
    (view.recordFrom start).consumeWhile pattern = view.consumeWhile pattern := by
  simp only [consumeWhile, countRun_recordFrom]

@[simp] theorem consumeClass_recordFrom (pattern : Pattern) :
    (view.recordFrom start).consumeClass pattern = view.consumeClass pattern := by
  cases pattern with
  | literal literal => rfl
  | satisfying test => exact view.consumeWhile_recordFrom start (.satisfying test)

@[simp] theorem consumeUnitRun_recordFrom (literal : Literal) :
    (view.recordFrom start).consumeUnitRun literal = view.consumeUnitRun literal :=
  view.consumeWhile_recordFrom start (.literal literal)

@[simp] theorem consumeLength_recordFrom (needed : Int) :
    (view.recordFrom start).consumeLength needed = view.consumeLength needed := by
  simp only [consumeLength, advance_recordFrom]

@[simp] theorem consumeAtLeast_recordFrom (needed : Int) :
    (view.recordFrom start).consumeAtLeast needed = view.consumeAtLeast needed := by
  simp only [consumeAtLeast, consumeLength_recordFrom, consume_recordFrom]

@[simp] theorem expect_recordFrom (pattern : Pattern) :
    (view.recordFrom start).expect pattern = view.expect pattern := by
  simp only [expect, test_recordFrom, peek_recordFrom, advance_recordFrom, mode_recordFrom]

@[simp] theorem expectEnd_recordFrom : (view.recordFrom start).expectEnd = view.expectEnd := by
  simp only [expectEnd, peek_recordFrom, mode_recordFrom]

/-! ## Looking ahead -/

section Looking

variable {start : Nat} {position : Nat} (started : start ≤ position)

include started

theorem lookAhead_recordFrom {α : Type} (scan : Scan α) :
    Scan.lookAhead (view.recordFrom start).restore scan position =
      Scan.lookAhead view.restore scan position := by
  simp only [Scan.lookAhead, view.restore_recordFrom start (Int.ofNat_le.mpr started)]

theorem peekAt_recordFrom (distance : Int) :
    (view.recordFrom start).peekAt distance position = view.peekAt distance position := by
  unfold peekAt
  split
  · rfl
  · rw [lookAhead_recordFrom view started, advance_recordFrom]

theorem peekLength_recordFrom (needed : Int) :
    (view.recordFrom start).peekLength needed position = view.peekLength needed position := by
  have taken := view.consumeLength_recordFrom start needed
  refine (view.lookAhead_recordFrom started _).trans ?_
  simp only [peekLength, taken]
  rfl

end Looking

/-- A recording over a stopped layer counts the bytes that the layer conceals. -/
theorem remaining_recordFrom_iff (position : Nat) :
    (view.recordFrom start).remaining position = view.remaining position ↔
      ¬ (view.layers.head? = some .stopped ∧ position < view.source.stop) := by
  obtain ⟨source, layers⟩ := view
  have counted : remaining (recordFrom ⟨source, layers⟩ start) position =
      (.ok (source.stop - position), position) := rfl
  rw [counted]
  rcases layers with _ | ⟨_ | _ | _, inner⟩
  · simp [remaining, Scan.position_bind]
  · simp [remaining, Scan.position_bind]
  · simp [remaining, Scan.position_bind]
  · simp [remaining]
    omega

/-! ## Splitting -/

@[simp] theorem nextSegment_recordFrom (delimiter : Pattern) (progress : Progress) :
    (view.recordFrom start).nextSegment delimiter progress =
      view.nextSegment delimiter progress := by
  simp only [nextSegment, consumeUntil_recordFrom, advance_recordFrom, bounded_recordFrom]

theorem sweepLoop_recordFrom {α : Type} (delimiter : Pattern) (visit : View → Scan α)
    (rounds : Nat) (results : Array α) (progress : Progress) :
    (view.recordFrom start).sweepLoop delimiter visit rounds results progress =
      view.sweepLoop delimiter visit rounds results progress := by
  induction rounds generalizing results progress with
  | zero => rfl
  | succ rounds inductionHypothesis =>
      simp only [sweepLoop, nextSegment_recordFrom, inductionHypothesis]

@[simp] theorem sweep_recordFrom {α : Type} (delimiter : Pattern) (visit : View → Scan α)
    (progress : Progress) :
    (view.recordFrom start).sweep delimiter visit progress =
      view.sweep delimiter visit progress :=
  view.sweepLoop_recordFrom start delimiter visit _ _ progress

/-! ## Grammars -/

theorem number_recordFrom {position : Nat} (started : start ≤ position) :
    (view.recordFrom start).number position = view.number position := by
  have back := view.restore_recordFrom start (Int.ofNat_le.mpr started)
  simp only [number, Scan.position_bind, nextIf_recordFrom, countRun_recordFrom,
    consumeWhile_recordFrom, back]
  rfl

theorem wholeNumber_recordFrom {position : Nat} (started : start ≤ position) :
    (view.recordFrom start).wholeNumber position = view.wholeNumber position := by
  have read := view.number_recordFrom start started
  simp only [wholeNumber, Scan.position_bind, expectEnd_recordFrom]
  exact Scan.bind_congr_at read _

theorem keyValue_recordFrom : (view.recordFrom start).keyValue = view.keyValue := by
  simp only [keyValue, advance_recordFrom]
  rfl

theorem keyValues_recordFrom (delimiter : Pattern) :
    (view.recordFrom start).keyValues delimiter = view.keyValues delimiter := by
  funext position
  simp only [keyValues, sweep_recordFrom, mode_recordFrom]

end View

end RecordScan
