import Mathlib.Data.List.Chain
import RecordScan.Proofs.Scan.Segments

/-!
Contract: splitting through ignoring layers splits the units that they leave.

Owns: the order of the segments of a division; what stands between two of them and
after the last one, which is ignored units around at most one other; the proof that
calls for segments end, and divide the visible units of every view that does not stop;
and the law of splitting for stacks of recordings and ignoring layers.

A segment ends right after its last visible unit. The ignored units between that and
the delimiter belong to no segment, those after the delimiter to the next one.
-/

namespace RecordScan.View

variable {view : View} {test : Code → Bool} {delimiter : Pattern} {position : Nat}

/-! ## Between two segments -/

theorem lt_of_visible_cons {stop resume : Nat} {unit : Code} (onward : stop ≤ resume)
    (between : view.visible stop = unit :: view.visible resume) : stop < resume := by
  refine Nat.lt_of_le_of_ne onward fun same => ?_
  subst same
  exact List.cons_ne_self unit _ between.symm

/-- Where the view shows a single unit, only ignored units stand around it. -/
theorem unitsFrom_between {stop resume : Nat} {unit : Code} (unstopped : .stopped ∉ view.layers)
    (stopAdmits : view.source.Admits stop) (resumeAdmits : view.source.Admits resume)
    (onward : stop ≤ resume) (between : view.visible stop = unit :: view.visible resume) :
    ∃ before after,
      (view.source.narrowed stop resume).unitsFrom stop = before ++ unit :: after ∧
      .ignoring unit ∉ view.layers ∧
      ∀ other ∈ before ++ after, .ignoring other ∈ view.layers := by
  have joined := visible_part unstopped stopAdmits resumeAdmits onward
  rw [between, part_visible, ← List.singleton_append] at joined
  have single := List.append_cancel_right joined
  obtain ⟨before, after, unitsEq, beforeIgnored, shown, afterIgnored⟩ :=
    List.filter_eq_cons_iff.mp single.symm
  simp only [List.filter_eq_nil_iff, decide_eq_true_eq, not_not] at beforeIgnored afterIgnored
  refine ⟨before, after, unitsEq, by simpa using shown, ?_⟩
  intro other member
  rcases List.mem_append.mp member with isBefore | isAfter
  · exact beforeIgnored other isBefore
  · exact afterIgnored other isAfter

/-- A part holds no recording, so that it may be read from its start. -/
theorem placed_part {first last : Nat} (firstAdmits : view.source.Admits first)
    (lastAdmits : view.source.Admits last) (ordered : first ≤ last) :
    (view.part first last).Placed first := by
  refine ⟨(firstAdmits.wellFormed_narrowed lastAdmits ordered).admits_start, ?_⟩
  intro start inLayers
  simp [part, isKept] at inLayers

namespace Divides

variable {start : Nat} {segments : List View}

theorem part_of_mem (divides : view.Divides test start segments) {segment : View}
    (member : segment ∈ segments) :
    ∃ first last, segment = view.part first last ∧ start ≤ first ∧ first ≤ last ∧
      view.source.Admits first ∧ view.source.Admits last := by
  induction divides with
  | @last start stop startAdmits stopAdmits ordered =>
      exact ⟨start, stop, List.mem_singleton.mp member, Nat.le_refl start, ordered, startAdmits,
        stopAdmits⟩
  | @next start stop _ _ _ startAdmits stopAdmits ordered _ onward _ _ _ inductionHypothesis =>
      rcases List.mem_cons.mp member with isFirst | isLater
      · exact ⟨start, stop, isFirst, Nat.le_refl start, ordered, startAdmits, stopAdmits⟩
      · obtain ⟨first, last, isPart, later, admitted⟩ := inductionHypothesis isLater
        exact ⟨first, last, isPart, by omega, admitted⟩

/-- Advancing through a segment yields what it shows. -/
theorem yields_of_mem (divides : view.Divides test start segments) {segment : View}
    (member : segment ∈ segments) :
    ∃ last, Scan.Yields segment.advance segment.source.start
      (segment.visible segment.source.start) last := by
  obtain ⟨first, last, rfl, -, ordered, firstAdmits, lastAdmits⟩ := divides.part_of_mem member
  obtain ⟨final, yields, -⟩ :=
    (view.part first last).reads.yields (placed_part firstAdmits lastAdmits ordered)
  exact ⟨final, yields⟩

theorem pairwise (divides : view.Divides test start segments) :
    segments.Pairwise fun earlier later => earlier.source.stop < later.source.start := by
  induction divides with
  | last => simp
  | next _ _ _ _ onward between _ rest inductionHypothesis =>
      refine List.pairwise_cons.mpr ⟨?_, inductionHypothesis⟩
      intro segment member
      obtain ⟨first, last, rfl, later, -⟩ := rest.part_of_mem member
      exact Nat.lt_of_lt_of_le (lt_of_visible_cons onward between) later

/-- From the end of a segment to the start of the next the view shows one unit, which matches. -/
theorem isChain (divides : view.Divides test start segments) :
    segments.IsChain fun earlier later => ∃ unit, test unit = true ∧
      view.source.Admits earlier.source.stop ∧ view.source.Admits later.source.start ∧
      earlier.source.stop ≤ later.source.start ∧
      view.visible earlier.source.stop = unit :: view.visible later.source.start := by
  induction divides with
  | last => exact .singleton _
  | @next start stop resume unit segments _ stopAdmits _ _ onward between delimits rest
      inductionHypothesis =>
      have resumeAdmits := rest.admits
      cases rest with
      | last =>
          exact .cons_cons ⟨unit, delimits, stopAdmits, resumeAdmits, onward, between⟩
            inductionHypothesis
      | next =>
          exact .cons_cons ⟨unit, delimits, stopAdmits, resumeAdmits, onward, between⟩
            inductionHypothesis

theorem spent_of_mem_getLast? (divides : view.Divides test start segments) {segment : View}
    (isLast : segment ∈ segments.getLast?) : view.visible segment.source.stop = [] := by
  induction divides with
  | last _ _ _ _ spent =>
      cases isLast
      exact spent
  | next _ _ _ _ _ _ _ rest inductionHypothesis =>
      apply inductionHypothesis
      cases rest with
      | last => exact isLast
      | next => exact isLast

end Divides

/-! ## Runs of a splitter -/

/-- One call: the part up to a unit that matches, and past it, or the last part. -/
private theorem nextSegment_divides_cases (unstopped : .stopped ∉ view.layers)
    (finds : view.Finds delimiter) (matched : delimiter.test? view.mode = .ok test)
    (placed : view.Placed position) :
    ∃ last moved, view.Placed last ∧ position ≤ last ∧ view.Placed moved ∧ last ≤ moved ∧
      (∀ unit ∈ (view.part position last).visible position, test unit = false) ∧
      (view.visible last = [] ∧
          view.nextSegment delimiter ⟨position, false⟩ =
            (.ok (view.part position last), ⟨moved, true⟩) ∨
        ∃ unit, test unit = true ∧ view.visible last = unit :: view.visible moved ∧
          view.nextSegment delimiter ⟨position, false⟩ =
            (.ok (view.part position last), ⟨moved, false⟩)) := by
  obtain ⟨last, moved, lastPlaced, forward, movedPlaced, further, lastAhead, movedAhead, -,
    given⟩ := nextSegment_eq finds matched placed
  refine ⟨last, moved, lastPlaced, forward, movedPlaced, further, ?_, ?_⟩
  · intro unit member
    rw [part_visible_of_dropWhile unstopped placed.1 lastPlaced.1 forward lastAhead] at member
    simpa using List.mem_takeWhile_imp member
  · cases ahead : view.visible last with
    | nil =>
        rw [ahead] at given
        exact .inl ⟨rfl, given⟩
    | cons unit rest =>
        have delimits : test unit = true := by
          have stopped :=
            List.head?_dropWhile_not (fun unit => !test unit) (view.visible position)
          rw [← lastAhead, ahead] at stopped
          simpa using stopped
        rw [ahead] at given movedAhead
        rw [movedAhead]
        exact .inr ⟨unit, delimits, rfl, given⟩

/-- Calling for segments ends, and has divided what was visible ahead. -/
theorem exists_divides (unstopped : .stopped ∉ view.layers) (finds : view.Finds delimiter)
    (matched : delimiter.test? view.mode = .ok test) (placed : view.Placed position) :
    ∃ segments last, view.HandsOut delimiter ⟨position, false⟩ segments ⟨last, true⟩ ∧
      view.Divides test position segments := by
  -- The induction is on the units left: each delimiter is one of them.
  induction left : (view.visible position).length using Nat.strongRecOn
    generalizing position with
  | ind count inductionHypothesis =>
      obtain ⟨last, moved, lastPlaced, forward, movedPlaced, further, clear,
        ⟨spent, given⟩ | ⟨unit, delimits, between, given⟩⟩ :=
        nextSegment_divides_cases unstopped finds matched placed
      · exact ⟨[_], moved, .next given (.done (nextSegment_exhausted _ _ _)),
          .last placed.1 lastPlaced.1 forward clear spent⟩
      · have shorter : (view.visible moved).length < count := by
          have joined := visible_part unstopped placed.1 lastPlaced.1 forward
          rw [← left, joined, between]
          simp only [List.length_append, List.length_cons]
          omega
        obtain ⟨segments, final, handsOut, divides⟩ :=
          inductionHypothesis _ shorter movedPlaced rfl
        exact ⟨_ :: segments, final, .next given handsOut,
          .next placed.1 lastPlaced.1 forward clear further between delimits divides⟩

/-! ## Splitting -/

/-- **Splitting through ignoring layers splits the units that they leave.** Over any stack of
recordings and ignoring layers, from every position that lies in all recordings and for every
delimiter, calls for segments end with a refusal. What the segments yield is what the view would
have yielded, split at the units that match. The segments follow each other; from the end of one to
the start of the next stand ignored units around one delimiter, after the last one only ignored
units. Each segment ignores what the view does. -/
theorem split_filters_units (view : View) (delimiter : Pattern) (test : Code → Bool)
    (position : Nat) (unstopped : .stopped ∉ view.layers)
    (ignores : ∃ unit, .ignoring unit ∈ view.layers) (placed : view.Placed position)
    (matched : delimiter.test? view.mode = .ok test) :
    ∃ (segments : List View) (final : Nat),
      view.HandsOut delimiter ⟨position, false⟩ segments ⟨final, true⟩ ∧
      (∃ last, Scan.Yields view.advance position (view.visible position) last) ∧
      (∀ segment ∈ segments, ∃ last, Scan.Yields segment.advance segment.source.start
        (segment.visible segment.source.start) last) ∧
      (segments.map fun segment => segment.visible segment.source.start) =
        (view.visible position).splitOnP test ∧
      segments.length = (view.visible position).countP test + 1 ∧
      segments.head?.map (·.source.start) = some position ∧
      (segments.Pairwise fun earlier later => earlier.source.stop < later.source.start) ∧
      (segments.IsChain fun earlier later => ∃ before unit after,
        (view.source.narrowed earlier.source.stop later.source.start).unitsFrom
            earlier.source.stop = before ++ unit :: after ∧
        test unit = true ∧ .ignoring unit ∉ view.layers ∧
        ∀ other ∈ before ++ after, .ignoring other ∈ view.layers) ∧
      (∀ segment ∈ segments.getLast?, ∀ unit ∈ view.source.unitsFrom segment.source.stop,
        .ignoring unit ∈ view.layers) ∧
      ∀ segment ∈ segments,
        (∃ first last, first ≤ last ∧ segment.source = view.source.narrowed first last) ∧
        (∀ layer ∈ segment.layers, ∃ unit, layer = .ignoring unit) ∧
        ∀ unit, .ignoring unit ∈ segment.layers ↔ .ignoring unit ∈ view.layers := by
  obtain ⟨segments, final, handsOut, divides⟩ :=
    exists_divides unstopped (.inl ignores) matched placed
  obtain ⟨last, yields, -⟩ := view.reads.yields placed
  refine ⟨segments, final, handsOut, ⟨last, yields⟩, fun _ => divides.yields_of_mem,
    divides.map_visible unstopped, divides.length_eq unstopped, divides.head?_start,
    divides.pairwise, ?_, ?_, ?_⟩
  · apply divides.isChain.imp
    rintro earlier later ⟨unit, delimits, stopAdmits, startAdmits, onward, between⟩
    obtain ⟨before, after, unitsEq, shown, ignored⟩ :=
      unitsFrom_between unstopped stopAdmits startAdmits onward between
    exact ⟨before, unit, after, unitsEq, delimits, shown, ignored⟩
  · intro segment isLast unit member
    have spent := divides.spent_of_mem_getLast? isLast
    rw [visible, visibleThrough_eq_filter unstopped, List.filter_eq_nil_iff] at spent
    simpa using spent unit member
  · intro segment member
    obtain ⟨first, last, rfl, -, ordered, -⟩ := divides.part_of_mem member
    refine ⟨⟨first, last, ordered, rfl⟩, ?_, fun unit => ignoring_mem_part view first last⟩
    intro layer isLayer
    cases layer with
    | ignoring unit => exact ⟨unit, rfl⟩
    | recording start => simp [part, isKept] at isLayer
    | stopped => simp [part, isKept] at isLayer

/-- Two ignoring layers around a recording, over ` a, ,é ` split at commas: blanks and the
accented letter are ignored, next to both delimiters and at the end. -/
theorem split_filters_units_blanks :
    let view : View :=
      ⟨⟨.text, #[0x20, 0x61, 0x2C, 0x20, 0x2C, 0xC3, 0xA9, 0x20], 0, 8⟩,
        [.ignoring 0x20, .recording 0, .ignoring 0xE9]⟩
    view.Placed 0 ∧ ∃ segments final,
      view.HandsOut (.literal (.text [0x2C])) ⟨0, false⟩ segments ⟨final, true⟩ ∧
      (segments.map fun segment => segment.visible segment.source.start) = [[0x61], [], []] := by
  have accepted : Source.ofInput .text (.text [0x20, 0x61, 0x2C, 0x20, 0x2C, 0xE9, 0x20]) =
      .ok ⟨.text, #[0x20, 0x61, 0x2C, 0x20, 0x2C, 0xC3, 0xA9, 0x20], 0, 8⟩ := rfl
  have admits : Source.Admits
      ⟨.text, #[0x20, 0x61, 0x2C, 0x20, 0x2C, 0xC3, 0xA9, 0x20], 0, 8⟩ 0 :=
    (Source.wellFormed_ofInput (by rintro text ⟨rfl⟩; decide) accepted).admits_start
  have placed : Placed ⟨⟨.text, #[0x20, 0x61, 0x2C, 0x20, 0x2C, 0xC3, 0xA9, 0x20], 0, 8⟩,
      [.ignoring 0x20, .recording 0, .ignoring 0xE9]⟩ 0 :=
    ⟨admits, fun start member => by simp_all⟩
  obtain ⟨segments, final, handsOut, -, -, divided, -⟩ :=
    split_filters_units _ (.literal (.text [0x2C])) (· == 0x2C) 0 (by decide)
      ⟨0x20, by decide⟩ placed rfl
  exact ⟨placed, segments, final, handsOut, divided.trans (by decide +kernel)⟩

end RecordScan.View
