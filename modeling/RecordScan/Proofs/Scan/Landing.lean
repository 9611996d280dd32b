import Mathlib.Data.List.DropRight
import RecordScan.Proofs.Scan.Filtering
import RecordScan.Proofs.Scan.Refusing

/-!
Contract: the exact places where steps, searches and calls for segments come to rest.

Owns: views under ignoring layers alone (`View.OnlyIgnores`); the place of the first unit
that shows (`View.ShowsAt`), right behind which a step lands; that the places behind units
that show are told apart by what shows from them (`View.Behind.eq_of_visible_eq`); that a
search walks, wherever it finds what it looks for; where one call for a segment leaves the
parent (`View.nextSegment_lands`); and the units of all segments, ignored ones included
(`View.HandsOut.pieces`).

Visible units alone do not determine a place: around each of them ignored units may stand.
What determines it is that a step, a walk and a call for a segment rest right behind a unit
that shows, or have not moved, or are at the end.
-/

theorem List.rdropWhile_append_of_forall {α : Type} {passes : α → Bool} {first second : List α}
    (all : ∀ item ∈ second, passes item = true) :
    (first ++ second).rdropWhile passes = first.rdropWhile passes := by
  have passed : ∀ item ∈ second.reverse, passes item = true := fun item member =>
    all item (List.mem_reverse.mp member)
  rw [List.rdropWhile, List.reverse_append, List.dropWhile_append_of_pos passed, List.rdropWhile]

namespace RecordScan.View

variable {view : View} {position mark : Nat} {delimiter : Pattern} {test : Code → Bool}

/-! ## Ignoring layers alone -/

/-- All layers of a view are ignoring ones. -/
def OnlyIgnores (view : View) : Prop :=
  ∀ layer ∈ view.layers, ∃ unit, layer = .ignoring unit

namespace OnlyIgnores

variable (onlyIgnores : view.OnlyIgnores)

include onlyIgnores

theorem unstopped : .stopped ∉ view.layers := by
  intro member
  obtain ⟨unit, isIgnoring⟩ := onlyIgnores _ member
  cases isIgnoring

theorem unrecorded (start : Nat) : .recording start ∉ view.layers := by
  intro member
  obtain ⟨unit, isIgnoring⟩ := onlyIgnores _ member
  cases isIgnoring

/-- Without recordings every position of the source is one of the view. -/
theorem placed (admits : view.source.Admits position) : view.Placed position :=
  ⟨admits, fun start member => absurd member (onlyIgnores.unrecorded start)⟩

end OnlyIgnores

/-! ## The first unit that shows -/

theorem unstopped_of_visible {unit : Code} {rest : List Code}
    (shows : view.visible position = unit :: rest) : .stopped ∉ view.layers := by
  intro stopped
  rw [visible, visibleThrough_of_stopped stopped] at shows
  cases shows

/-- The first unit from a position on that no layer ignores stands at a place. -/
structure ShowsAt (view : View) (position place : Nat) (unit : Code) : Prop where
  onward : position ≤ place
  admits : view.source.Admits place
  stands : view.source.UnitAt place unit
  shown : .ignoring unit ∉ view.layers
  skipped : ∀ other ∈ (view.source.narrowed position place).unitsFrom position,
    .ignoring other ∈ view.layers

/-- Between two places that show the same stand ignored units only. -/
theorem ignored_of_visible_eq {first last : Nat} (unstopped : .stopped ∉ view.layers)
    (firstAdmits : view.source.Admits first) (lastAdmits : view.source.Admits last)
    (ordered : first ≤ last) (same : view.visible first = view.visible last) :
    ∀ unit ∈ (view.source.narrowed first last).unitsFrom first, .ignoring unit ∈ view.layers := by
  have joined := visible_part unstopped firstAdmits lastAdmits ordered
  rw [same] at joined
  have nothing : (view.part first last).visible first = [] := List.self_eq_append_left.mp joined
  rw [part_visible, List.filter_eq_nil_iff] at nothing
  simpa using nothing

/-- A step that takes a unit ends right behind it. -/
theorem advance_lands (placed : view.Placed position) {unit : Code} {rest : List Code}
    (shows : view.visible position = unit :: rest) :
    ∃ place, view.ShowsAt position place unit ∧
      view.advance position =
        (.ok (some unit), place + view.source.mode.unitWidth unit) ∧
      view.Behind position (place + view.source.mode.unitWidth unit) ∧
      view.visible (place + view.source.mode.unitWidth unit) = rest := by
  have unstopped := unstopped_of_visible shows
  obtain ⟨moved, answer, movedPlaced, forward, ahead⟩ := view.reads.advance_leaves placed
  rw [shows] at answer ahead
  obtain ⟨place, onward, admits, stands, rfl⟩ := advanceThrough_lands placed answer
  have shown : .ignoring unit ∉ view.layers :=
    ignoring_not_mem_of_visible (shows ▸ List.mem_cons_self ..)
  have showsThere : view.visible place = unit :: rest := by
    rw [List.tail_cons] at ahead
    rw [← ahead, visible, visible, visibleThrough_eq_filter unstopped,
      visibleThrough_eq_filter unstopped, stands.unitsFrom_eq,
      List.filter_cons_of_pos (by simpa using shown)]
  have skipped :=
    ignored_of_visible_eq unstopped placed.1 admits onward (shows.trans showsThere.symm)
  exact ⟨place, ⟨onward, admits, stands, shown, skipped⟩, answer,
    ⟨movedPlaced, forward, .inr ⟨place, unit, onward, admits, stands, shown, rfl⟩⟩, ahead⟩

/-- Of the places behind units that show, no two show the same. -/
theorem Behind.eq_of_visible_eq {first second : Nat} (unstopped : .stopped ∉ view.layers)
    (markAdmits : view.source.Admits mark) (isFirst : view.Behind mark first)
    (isSecond : view.Behind mark second) (same : view.visible first = view.visible second) :
    first = second := by
  have notBefore {low high : Nat} (isLow : view.Behind mark low) (isHigh : view.Behind mark high)
      (same : view.visible low = view.visible high) (ordered : low ≤ high) : low = high := by
    have ignored := ignored_of_visible_eq unstopped isLow.placed.1 isHigh.placed.1 ordered same
    -- The last unit between the places would show from the mark, yet all of them are ignored.
    have fromMark := markAdmits.unitsFrom_narrowed isHigh.placed.1 isHigh.onward
    have toLow := markAdmits.unitsFrom_narrowed isLow.placed.1 isLow.onward
    have fromLow := isLow.placed.1.unitsFrom_narrowed isHigh.placed.1 ordered
    rw [toLow, fromLow, ← List.append_assoc] at fromMark
    have cut := List.append_cancel_right fromMark
    rcases List.eq_nil_or_concat ((view.source.narrowed low high).unitsFrom low) with
      isEmpty | ⟨before, unit, ends⟩
    · rw [isEmpty, List.nil_append] at fromLow
      exact isLow.placed.1.eq_of_unitsFrom_eq isHigh.placed.1 fromLow
    · have isLast : ((view.source.narrowed mark high).unitsFrom mark).getLast? = some unit := by
        rw [← cut, ends]
        simp
      exact absurd (ignored unit (by simp [ends])) (isHigh.getLast?_unitsFrom markAdmits isLast)
  rcases Nat.le_total first second with ordered | ordered
  · exact notBefore isFirst isSecond same ordered
  · exact (notBefore isSecond isFirst same.symm ordered).symm

/-! ## Searches -/

theorem walkUntil_rests (pattern : Pattern) :
    Scan.Rests (view.Behind mark) (view.walkUntil pattern) := by
  refine (Scan.Rests.ofExcept _).bind fun test => ?_
  refine Scan.Rests.bind (.position_bind fun place => ?_) fun _ => .pure ()
  exact (nextWith_rests _).countLoop _ 0

/-- A search that finds what it looks for ends where a walk does. -/
theorem Finds.consumeUntil_eq_walkUntil (finds : view.Finds delimiter)
    (matched : delimiter.test? view.mode = .ok test) (placed : view.Placed position) :
    view.consumeUntil delimiter position = view.walkUntil delimiter position := by
  obtain ⟨source, layers⟩ := view
  induction layers with
  | nil =>
      obtain ⟨leapt, leapAnswer, leapPlaced, -, leapAhead⟩ :=
        finds.consumeUntil_leaves matched placed
      obtain ⟨walked, walkAnswer, walkPlaced, -, walkAhead⟩ := walkUntil_leaves matched placed
      have same : leapt = walked :=
        leapPlaced.1.eq_of_unitsFrom_eq walkPlaced.1 (leapAhead.trans walkAhead.symm)
      rw [leapAnswer, walkAnswer, same]
  | cons layer inner inductionHypothesis =>
      cases layer with
      | recording start =>
          have innerFinds : Finds ⟨source, inner⟩ delimiter := by
            simpa [Finds, View.mode] using finds
          exact (inductionHypothesis innerFinds matched placed.inner).trans
            (congrFun (walkUntil_recordFrom ⟨source, inner⟩ start delimiter).symm position)
      | ignoring unit => rfl
      | stopped => rfl

/-! ## One segment -/

theorem Placed.stop (placed : view.Placed position) : view.Placed view.source.stop :=
  ⟨placed.1.admits_stop, fun start member =>
    Nat.le_trans (placed.2 start member) placed.1.le_stop⟩

/-- A segment ends right behind a unit that shows, or where it begins, and nothing that shows in
it matches. -/
structure IsSegment (view : View) (test : Code → Bool) (position last : Nat) : Prop where
  behind : view.Behind position last
  clear : ∀ unit ∈ (view.source.narrowed position last).unitsFrom position,
    .ignoring unit ∉ view.layers → test unit = false

/-- Where the parent stands after a segment that ends at `last`: right behind the next unit that
shows, which matches; or at the end, with the splitter exhausted, if none shows. -/
inductive PastSegment (view : View) (test : Code → Bool) (last : Nat) : Progress → Prop
  | delimiter {place : Nat} {unit : Code} (shows : view.ShowsAt last place unit)
      (delimits : test unit = true) :
      PastSegment view test last ⟨place + view.source.mode.unitWidth unit, false⟩
  | spent (ignored : ∀ unit ∈ view.source.unitsFrom last, .ignoring unit ∈ view.layers) :
      PastSegment view test last ⟨view.source.stop, true⟩

theorem nextSegment_lands (unstopped : .stopped ∉ view.layers) (finds : view.Finds delimiter)
    (matched : delimiter.test? view.mode = .ok test) (placed : view.Placed position) :
    ∃ last moved, view.IsSegment test position last ∧ view.PastSegment test last moved ∧
      view.Placed moved.position ∧
      view.nextSegment delimiter ⟨position, false⟩ = (.ok (view.part position last), moved) := by
  obtain ⟨last, consumed, lastPlaced, forward, lastAhead⟩ :=
    finds.consumeUntil_leaves matched placed
  have behind : view.Behind position last := by
    have rests := walkUntil_rests delimiter position placed.behind
    rwa [← finds.consumeUntil_eq_walkUntil matched placed, consumed] at rests
  have segment : view.IsSegment test position last := by
    refine ⟨behind, fun unit member shown => ?_⟩
    have isTaken : unit ∈ (view.visible position).takeWhile fun unit => !test unit := by
      rw [← part_visible_of_dropWhile unstopped placed.1 lastPlaced.1 forward lastAhead,
        part_visible]
      exact List.mem_filter.mpr ⟨member, by simpa using shown⟩
    simpa using List.mem_takeWhile_imp isTaken
  have given {found : Option Code} {moved : Nat}
      (taken : view.advance last = (.ok found, moved)) :=
    nextSegment_of_search placed.1 lastPlaced.1 forward consumed taken
  cases ahead : view.visible last with
  | nil =>
      have taken := advance_of_spent lastPlaced ahead
      have isEnd : view.finish last = view.source.stop := if_neg unstopped
      rw [isEnd] at taken
      exact ⟨last, _, segment, .spent (ignored_of_spent unstopped ahead), placed.stop,
        given taken⟩
  | cons unit rest =>
      have delimits : test unit = true := by
        have stopped := List.head?_dropWhile_not (fun unit => !test unit) (view.visible position)
        rw [← lastAhead, ahead] at stopped
        simpa using stopped
      obtain ⟨place, shows, taken, movedBehind, -⟩ := advance_lands lastPlaced ahead
      exact ⟨last, _, segment, .delimiter shows delimits, movedBehind.placed, given taken⟩

/-! ## All segments -/

/-- Whether some layer ignores a unit. -/
def ignores (view : View) (unit : Code) : Bool :=
  decide (.ignoring unit ∈ view.layers)

@[simp] theorem ignores_iff (view : View) {unit : Code} :
    view.ignores unit = true ↔ .ignoring unit ∈ view.layers :=
  decide_eq_true_iff

@[simp] theorem ignores_eq_false_iff (view : View) {unit : Code} :
    view.ignores unit = false ↔ .ignoring unit ∉ view.layers :=
  decide_eq_false_iff_not

/-- What is ignored behind a segment is no part of it. -/
theorem IsSegment.rdropWhile_eq {last : Nat} (segment : view.IsSegment test position last)
    (admits : view.source.Admits position) {skipped : List Code}
    (ignored : ∀ unit ∈ skipped, .ignoring unit ∈ view.layers) :
    ((view.source.narrowed position last).unitsFrom position ++ skipped).rdropWhile view.ignores =
      (view.source.narrowed position last).unitsFrom position := by
  have skips : ∀ unit ∈ skipped, view.ignores unit = true := fun unit member =>
    view.ignores_iff.mpr (ignored unit member)
  rw [List.rdropWhile_append_of_forall skips, List.rdropWhile_eq_self_iff]
  intro nonempty
  have isLast := List.getLast?_eq_some_getLast nonempty
  simpa using segment.behind.getLast?_unitsFrom admits isLast

/-- Neither a segment nor what is ignored behind it holds a delimiter. -/
theorem IsSegment.delimits_eq_false {last : Nat} (segment : view.IsSegment test position last)
    {skipped : List Code} (ignored : ∀ unit ∈ skipped, .ignoring unit ∈ view.layers) :
    ∀ unit ∈ (view.source.narrowed position last).unitsFrom position ++ skipped,
      (test unit && !view.ignores unit) = false := by
  intro unit member
  by_cases isIgnored : .ignoring unit ∈ view.layers
  · simp [view.ignores_iff.mpr isIgnored]
  · rcases List.mem_append.mp member with inSegment | isSkipped
    · simp [segment.clear unit inSegment isIgnored]
    · exact absurd (ignored unit isSkipped) isIgnored

/-- **The units of the segments.** The units ahead of a position, ignored ones included, are split
at those that show and match, and each piece lacks what is ignored at its end. -/
theorem HandsOut.pieces {progress final : Progress} {segments : List View}
    (handsOut : view.HandsOut delimiter progress segments final)
    (unstopped : .stopped ∉ view.layers) (finds : view.Finds delimiter)
    (matched : delimiter.test? view.mode = .ok test) (placed : view.Placed progress.position)
    (notExhausted : progress.exhausted = false) :
    (segments.map fun segment => segment.source.unitsFrom segment.source.start) =
        ((view.source.unitsFrom progress.position).splitOnP fun unit =>
          test unit && !view.ignores unit).map (List.rdropWhile view.ignores) ∧
      final = ⟨view.source.stop, true⟩ := by
  induction handsOut with
  | @done progress spent =>
      obtain ⟨position, exhausted⟩ := progress
      subst notExhausted
      obtain ⟨last, moved, -, -, -, given⟩ := nextSegment_lands unstopped finds matched placed
      cases given.symm.trans spent
  | @next progress moved final segment segments given rest inductionHypothesis =>
      obtain ⟨position, exhausted⟩ := progress
      subst notExhausted
      obtain ⟨last, landed, segment, past, landedPlaced, isGiven⟩ :=
        nextSegment_lands unstopped finds matched placed
      cases given.symm.trans isGiven
      have ahead := placed.1.unitsFrom_narrowed segment.behind.placed.1 segment.behind.onward
      cases past with
      | @delimiter place unit shows delimits =>
          obtain ⟨later, isFinal⟩ := inductionHypothesis landedPlaced rfl
          have isDelimiter : (test unit && !view.ignores unit) = true := by
            simp [delimits, shows.shown]
          have between :=
            segment.behind.placed.1.unitsFrom_narrowed shows.admits shows.onward
          rw [shows.stands.unitsFrom_eq] at between
          refine ⟨?_, isFinal⟩
          rw [ahead, between, ← List.append_assoc, List.splitOnP_append_cons_of_forall_mem
            (segment.delimits_eq_false shows.skipped) unit isDelimiter, List.map_cons,
            List.map_cons, later, segment.rdropWhile_eq placed.1 shows.skipped]
          rfl
      | spent ignored =>
          cases rest with
          | done =>
              refine ⟨?_, rfl⟩
              rw [ahead, List.splitOnP_eq_singleton (segment.delimits_eq_false ignored),
                List.map_cons, List.map_cons, segment.rdropWhile_eq placed.1 ignored]
              rfl
          | next spent =>
              rw [nextSegment_exhausted] at spent
              cases spent

end RecordScan.View
