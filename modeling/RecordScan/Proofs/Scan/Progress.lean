import RecordScan.Proofs.Scan.Landing
import RecordScan.Proofs.Scan.Sweeps

/-!
Contract: every loop of steps ends by itself, within as many rounds as bytes are left.

Owns: moves that get on whenever they yield a unit (`Scan.Progresses`), and the bound on what such
a move yields (`Scan.Progresses.exists_yields`); the steps of a view as such moves; the two parts of
a step through an ignoring layer (`View.advance_ignoring`); and sweeps told without a number of
rounds (`View.Visits`), with the same for segments.

A step through an ignoring layer looks by going forward and back again, so that the places it
passes on the way say nothing about progress. What counts is the place where it comes to rest: right
behind the unit that it yields. A splitter may come to rest where it was, once, and then its flag is
what ends it.

Loops are run with a number of rounds as an argument. That this number is never what ends a loop is
a part of each statement: `Scan.Yields` and `View.Visits` end with a step that finds no more.
-/

namespace RecordScan

namespace Scan

/-- From every place of a kind a move answers and comes to such a place again; and whenever it
yields a unit this is a later one, at or before `stop`. -/
structure Progresses (placed : Nat → Prop) (stop : Nat) (move : Scan (Option Code)) : Prop where
  answers : ∀ {position}, placed position →
    ∃ found moved, move position = (.ok found, moved) ∧ placed moved
  forward : ∀ {position moved unit}, placed position →
    move position = (.ok (some unit), moved) → position < moved ∧ moved ≤ stop

variable {placed : Nat → Prop} {stop position : Nat} {move peek advance : Scan (Option Code)}

/-- Such a move yields at most as many units as there are places up to `stop`. -/
theorem Progresses.exists_yields (progresses : Progresses placed stop move)
    (isPlaced : placed position) :
    ∃ units last, Yields move position units last ∧ placed last ∧
      units.length ≤ stop - position := by
  -- The places that are left are the measure: each unit leaves fewer of them.
  induction left : stop - position using Nat.strong_induction_on generalizing position with
  | _ left inductionHypothesis =>
      obtain ⟨found, moved, answer, movedPlaced⟩ := progresses.answers isPlaced
      cases found with
      | none => exact ⟨[], moved, .done answer, movedPlaced, Nat.zero_le _⟩
      | some unit =>
          obtain ⟨further, inside⟩ := progresses.forward isPlaced answer
          obtain ⟨units, last, yields, lastPlaced, few⟩ :=
            inductionHypothesis (stop - moved) (by omega) movedPlaced rfl
          refine ⟨unit :: units, last, .next answer yields, lastPlaced, ?_⟩
          rw [List.length_cons]
          omega

/-- A step that looks first progresses if the plain step does. -/
theorem Progresses.nextIf (progresses : Progresses placed stop advance)
    (looks : ∀ {position}, placed position → ∃ found, peek position = (.ok found, position))
    (test : Code → Bool) : Progresses placed stop (Scan.nextIf peek advance test) where
  answers {position} isPlaced := by
    obtain ⟨found, looked⟩ := looks isPlaced
    rw [Scan.nextIf, bind_of_ok looked]
    cases found with
    | none => exact ⟨none, position, rfl, isPlaced⟩
    | some unit =>
        dsimp only
        split
        · exact progresses.answers isPlaced
        · exact ⟨none, position, rfl, isPlaced⟩
  forward {position moved unit} isPlaced taken := by
    obtain ⟨found, looked⟩ := looks isPlaced
    rw [Scan.nextIf, bind_of_ok looked] at taken
    cases found with
    | none => cases taken
    | some unit =>
        dsimp only at taken
        split at taken
        · exact progresses.forward isPlaced taken
        · cases taken

end Scan

/-- The most segments that are left to a splitter: one more than places ahead, or none once it is
exhausted. -/
def Progress.left (progress : Progress) (stop : Nat) : Nat :=
  if progress.exhausted then 0 else stop - progress.position + 1

theorem Progress.left_le (progress : Progress) (stop : Nat) :
    progress.left stop ≤ stop - progress.position + 1 := by
  unfold left
  split
  · exact Nat.zero_le _
  · exact Nat.le_refl _

namespace View

variable {view segment : View} {position : Nat} {delimiter : Pattern} {progress moved : Progress}

/-! ## Steps -/

/-- A plain step that yields a unit has passed it. -/
theorem advance_progresses (view : View) :
    Scan.Progresses view.Placed view.source.stop view.advance where
  answers placed := by
    obtain ⟨moved, answer, movedPlaced, -⟩ := view.reads.advance_leaves placed
    exact ⟨_, moved, answer, movedPlaced⟩
  forward {position moved unit} placed taken := by
    obtain ⟨place, onward, -, stands, rfl⟩ := advanceThrough_lands placed taken
    have positive := view.source.mode.unitWidth_pos unit
    exact ⟨by omega, stands.admits_next.le_stop⟩

theorem nextWith_progresses (view : View) (test : Code → Bool) :
    Scan.Progresses view.Placed view.source.stop (view.nextWith test) :=
  view.advance_progresses.nextIf (fun placed => ⟨_, view.reads.peek_eq placed⟩) test

theorem nextIf_eq_nextWith {pattern : Pattern} {test : Code → Bool}
    (matched : pattern.test? view.mode = .ok test) : view.nextIf pattern = view.nextWith test := by
  funext position
  exact test_bind matched _ position

theorem nextIf_forward {pattern : Pattern} {unit : Code} {moved : Nat}
    (placed : view.Placed position)
    (taken : view.nextIf pattern position = (.ok (some unit), moved)) :
    position < moved ∧ moved ≤ view.source.stop := by
  cases matched : pattern.test? view.mode with
  | ok test =>
      rw [nextIf_eq_nextWith matched] at taken
      exact (view.nextWith_progresses test).forward placed taken
  | error fault =>
      obtain ⟨other, stayed, refused⟩ := (nextIf_refusedFor pattern placed).refused matched
      cases taken.symm.trans refused

/-! ## Loops of steps -/

/-- A run of conditional steps ends with a step that finds nothing. -/
theorem exists_run (test : Code → Bool) (placed : view.Placed position) :
    ∃ units last, Scan.Yields (view.nextWith test) position units last ∧ view.Placed last ∧
      units.length ≤ view.source.stop - position ∧
      view.countWith test position = (.ok units.length, last) := by
  obtain ⟨units, last, yields, lastPlaced, few⟩ :=
    (view.nextWith_progresses test).exists_yields placed
  have counted := yields.countLoop_eq 0 (Nat.lt_succ_of_le few)
  rw [Nat.zero_add] at counted
  exact ⟨units, last, yields, lastPlaced, few, counted⟩

/-- All units are taken by a loop of plain steps, or by a leap that ends where it does. -/
theorem exists_yields_all (placed : view.Placed position) :
    ∃ units last, Scan.Yields view.advance position units last ∧
      units.length ≤ view.source.stop - position ∧
      view.consume position = (.ok (), last) ∧
      view.countAll position = (.ok units.length, last) := by
  obtain ⟨units, last, yields, -, few⟩ := view.advance_progresses.exists_yields placed
  have counted : view.countAll position = (.ok (0 + units.length), last) :=
    yields.countLoop_eq 0 (Nat.lt_succ_of_le few)
  rw [Nat.zero_add] at counted
  have isLast := (Prod.mk.inj (counted.symm.trans (countAll_eq placed))).2
  exact ⟨units, last, yields, few, isLast ▸ consume_eq placed, counted⟩

/-- A search ends where a walk does, unless it is a leap that has no bytes to look for. -/
theorem consumeUntil_walks_or_refused {pattern : Pattern} {test : Code → Bool}
    (codePoints : ∀ text, pattern = .literal (.text text) → ∀ code ∈ text, code ≤ Code.greatest)
    (matched : pattern.test? view.mode = .ok test) (placed : view.Placed position) :
    view.consumeUntil pattern position = view.walkUntil pattern position ∨
      ∃ unit, view.RefusesSearch pattern (.unencodable unit) ∧
        view.consumeUntil pattern position = (.error (.unencodable unit), position) := by
  by_cases stopped : .stopped ∈ view.layers
  · exact .inl (congrFun (consumeUntil_of_stopped stopped pattern) position)
  rcases finds_or_refuses stopped codePoints with finds | ⟨unit, refuses⟩
  · exact .inl (finds.consumeUntil_eq_walkUntil matched placed)
  · have refusedFor := consumeUntil_refusedFor pattern placed
    obtain ⟨fault, moved, refusal⟩ := refusedFor.refused refuses
    obtain ⟨isCause, rfl⟩ := refusedFor.stays refusal
    cases isCause with
    | literal unread => cases matched.symm.trans unread
    | surrogate leaps isText isLiteral coerced surrogate =>
        exact .inr ⟨_, .surrogate leaps isText isLiteral coerced surrogate, refusal⟩

/-- A look answers what a step does, and stays. -/
theorem peek_eq_advance (placed : view.Placed position) :
    view.peek position = ((view.advance position).1, position) := by
  obtain ⟨moved, answer, -⟩ := view.reads.advance_leaves placed
  rw [view.reads.peek_eq placed, answer]

/-- A step through an ignoring layer is a run of conditional steps beneath it, and a plain one. -/
theorem advance_ignoring {source : Source} {inner : List Layer} {unit : Code}
    (placed : Placed ⟨source, .ignoring unit :: inner⟩ position) :
    ∃ skipped between, Scan.Yields (nextWith ⟨source, inner⟩ (· == unit)) position skipped between ∧
      Placed ⟨source, inner⟩ between ∧ skipped.length ≤ source.stop - position ∧
      advance ⟨source, .ignoring unit :: inner⟩ position = advance ⟨source, inner⟩ between := by
  obtain ⟨skipped, between, yields, betweenPlaced, few, counted⟩ :=
    @exists_run ⟨source, inner⟩ position (· == unit) placed.inner
  exact ⟨skipped, between, yields, betweenPlaced, few, Scan.bind_of_ok counted⟩

/-! ## Segments -/

/-- A call that hands out a segment leaves fewer to be handed out: it has moved the parent past a
delimiter, or has raised the flag. -/
theorem nextSegment_progresses (placed : view.Placed progress.position)
    (given : view.nextSegment delimiter progress = (.ok segment, moved)) :
    view.Placed moved.position ∧
      moved.left view.source.stop < progress.left view.source.stop := by
  unfold nextSegment at given
  split at given
  · cases given
  · next notExhausted =>
      obtain ⟨lastAdmits, -⟩ := view.consumeUntil_keeps delimiter _ placed.1.fromSelf
      split at given
      · cases given
      · next last consumed =>
          rw [consumed] at lastAdmits
          have forward := lastAdmits.floor_le
          have lastPlaced : view.Placed last :=
            ⟨lastAdmits.toAdmits, fun start member => Nat.le_trans (placed.2 start member) forward⟩
          obtain ⟨found, landed, taken, landedPlaced⟩ :=
            view.advance_progresses.answers lastPlaced
          rw [taken] at given
          obtain ⟨-, rfl⟩ := Prod.mk.inj given
          refine ⟨landedPlaced, ?_⟩
          simp only [Progress.left, notExhausted]
          cases found with
          | none => exact Nat.succ_pos _
          | some unit =>
              obtain ⟨further, inside⟩ := view.advance_progresses.forward lastPlaced taken
              show view.source.stop - landed + 1 < view.source.stop - progress.position + 1
              omega

/-! ## Sweeps -/

/-- Segment after segment is handed out and visited, until a call for one is refused, because there
are no more or for its delimiter, or a visit is. -/
inductive Visits {α : Type} (view : View) (delimiter : Pattern) (visit : View → Scan α) :
    Progress → List View → Sweep α → Prop
  | spent {progress moved : Progress}
      (given : view.nextSegment delimiter progress = (.error .exhausted, moved)) :
      Visits view delimiter visit progress [] ⟨[], none, moved⟩
  | refused {progress moved : Progress} {fault : Fault}
      (given : view.nextSegment delimiter progress = (.error fault, moved))
      (early : fault ≠ .exhausted) :
      Visits view delimiter visit progress [] ⟨[], some fault, moved⟩
  | failed {progress moved : Progress} {segment : View} {fault : Fault}
      (given : view.nextSegment delimiter progress = (.ok segment, moved))
      (fails : (visit segment segment.source.start).1 = .error fault) :
      Visits view delimiter visit progress [segment] ⟨[], some fault, moved⟩
  | next {progress moved : Progress} {segment : View} {result : α} {segments : List View}
      {sweep : Sweep α} (given : view.nextSegment delimiter progress = (.ok segment, moved))
      (answers : (visit segment segment.source.start).1 = .ok result)
      (rest : Visits view delimiter visit moved segments sweep) :
      Visits view delimiter visit progress (segment :: segments)
        ⟨result :: sweep.results, sweep.fault, sweep.progress⟩

section Sweeps

variable {α : Type} {visit : View → Scan α} {segments : List View} {sweep : Sweep α}

/-- With more rounds than segments, a loop over the segments is never cut short. -/
theorem Visits.sweepLoop_eq (visits : view.Visits delimiter visit progress segments sweep)
    {rounds : Nat} (enough : segments.length ≤ rounds) (results : Array α) :
    view.sweepLoop delimiter visit (rounds + 1) results progress =
      ⟨results.toList ++ sweep.results, sweep.fault, sweep.progress⟩ := by
  induction visits generalizing rounds results with
  | spent given => simp [sweepLoop, given]
  | refused given early => simp [sweepLoop, given]
  | failed given fails => simp [sweepLoop, given, fails]
  | @next progress moved segment result segments sweep given answers rest inductionHypothesis =>
      obtain ⟨rounds, rfl⟩ := Nat.exists_eq_add_of_lt enough
      have later := inductionHypothesis (Nat.le_add_right _ rounds) (results.push result)
      rw [sweepLoop, given]
      simp only [answers, later]
      simp

theorem Visits.visitedLoop_eq (visits : view.Visits delimiter visit progress segments sweep)
    {rounds : Nat} (enough : segments.length ≤ rounds) :
    view.visitedLoop delimiter visit (rounds + 1) progress = segments := by
  induction visits generalizing rounds with
  | spent given => simp only [visitedLoop, given]
  | refused given early => simp only [visitedLoop, given]
  | failed given fails => simp only [visitedLoop, given, fails]
  | @next progress moved segment result segments sweep given answers rest inductionHypothesis =>
      obtain ⟨rounds, rfl⟩ := Nat.exists_eq_add_of_lt enough
      have later := inductionHypothesis (Nat.le_add_right segments.length rounds)
      rw [visitedLoop, given]
      simp only [answers, later]

/-- Segments come to an end, whatever the delimiter is and whatever the visits answer. -/
theorem exists_visits (delimiter : Pattern) (visit : View → Scan α)
    (placed : view.Placed progress.position) :
    ∃ segments sweep, view.Visits delimiter visit progress segments sweep ∧
      segments.length ≤ progress.left view.source.stop := by
  induction left : progress.left view.source.stop using Nat.strong_induction_on
      generalizing progress with
  | _ left inductionHypothesis =>
      cases call : view.nextSegment delimiter progress with
      | mk answer moved =>
          cases answer with
          | error fault =>
              by_cases spent : fault = .exhausted
              · subst spent
                exact ⟨[], _, .spent call, Nat.zero_le _⟩
              · exact ⟨[], _, .refused call spent, Nat.zero_le _⟩
          | ok segment =>
              obtain ⟨movedPlaced, fewer⟩ := nextSegment_progresses placed call
              cases visited : (visit segment segment.source.start).1 with
              | error fault =>
                  refine ⟨[segment], _, .failed call visited, ?_⟩
                  rw [List.length_singleton]
                  omega
              | ok result =>
                  obtain ⟨segments, sweep, visits, few⟩ :=
                    inductionHypothesis _ (left ▸ fewer) movedPlaced rfl
                  refine ⟨segment :: segments, _, .next call visited visits, ?_⟩
                  rw [List.length_cons]
                  omega

/-- A sweep is never cut short, and what it visits are all the segments there are for it. -/
theorem sweep_visits (delimiter : Pattern) (visit : View → Scan α)
    (placed : view.Placed progress.position) :
    view.Visits delimiter visit progress (view.visited delimiter visit progress)
        (view.sweep delimiter visit progress) ∧
      (view.visited delimiter visit progress).length ≤ progress.left view.source.stop := by
  obtain ⟨segments, sweep, visits, few⟩ := exists_visits delimiter visit placed
  have enough : segments.length ≤ view.source.stop - progress.position + 1 :=
    Nat.le_trans few (progress.left_le view.source.stop)
  have isSweep : view.sweep delimiter visit progress = sweep := visits.sweepLoop_eq enough #[]
  have areVisited : view.visited delimiter visit progress = segments :=
    visits.visitedLoop_eq enough
  rw [isSweep, areVisited]
  exact ⟨visits, few⟩

end Sweeps

/-! ## All loops -/

/-- **Every scanning loop gets on and ends.** From every position that lies in all recordings of a
view, over any stack of layers, a step that yields a unit, conditional or not, has moved on and is
still inside the bounds. So each loop of steps ends with a step that finds nothing, after at most as
many units as bytes were left: the way to the end and the count of all units, runs of units that
match and their counts, searches, which end where such a loop does unless half a surrogate pair is
refused in its place, and the run that a step through an ignoring layer skips before it steps
beneath the layer, where all this holds again; a look through the layer does the same and returns. A
sweep over segments, whatever the delimiter and whatever is done with each segment, ends in the same
way, after at most one segment more than bytes were left. -/
theorem scanning_loops_end (view : View) (position : Nat) (placed : view.Placed position) :
    (∀ unit moved, view.advance position = (.ok (some unit), moved) →
      position < moved ∧ moved ≤ view.source.stop) ∧
    (∀ pattern unit moved, view.nextIf pattern position = (.ok (some unit), moved) →
      position < moved ∧ moved ≤ view.source.stop) ∧
    (∃ units last, Scan.Yields view.advance position units last ∧
      units.length ≤ view.source.stop - position ∧
      view.consume position = (.ok (), last) ∧
      view.countAll position = (.ok units.length, last)) ∧
    (∀ pattern test, pattern.test? view.mode = .ok test →
      ∃ units last, Scan.Yields (view.nextIf pattern) position units last ∧
        units.length ≤ view.source.stop - position ∧
        view.consumeWhile pattern position = (.ok (), last) ∧
        view.countRun pattern position = (.ok units.length, last)) ∧
    (∀ pattern test, pattern.test? view.mode = .ok test →
      (∀ text, pattern = .literal (.text text) → ∀ code ∈ text, code ≤ Code.greatest) →
      ∃ units last,
        Scan.Yields (view.nextIf (.satisfying fun unit => !test unit)) position units last ∧
        units.length ≤ view.source.stop - position ∧
        (view.consumeUntil pattern position = (.ok (), last) ∨
          ∃ unit, view.RefusesSearch pattern (.unencodable unit) ∧
            view.consumeUntil pattern position = (.error (.unencodable unit), position))) ∧
    (∀ unit inner, view.layers = .ignoring unit :: inner →
      ∃ skipped between,
        Scan.Yields (nextIf ⟨view.source, inner⟩ (.satisfying (· == unit))) position skipped
          between ∧
        Placed ⟨view.source, inner⟩ between ∧ skipped.length ≤ view.source.stop - position ∧
        view.advance position = advance ⟨view.source, inner⟩ between ∧
        view.peek position = ((advance ⟨view.source, inner⟩ between).1, position)) ∧
    ∀ (α : Type) (delimiter : Pattern) (visit : View → Scan α) (exhausted : Bool),
      view.Visits delimiter visit ⟨position, exhausted⟩
        (view.visited delimiter visit ⟨position, exhausted⟩)
        (view.sweep delimiter visit ⟨position, exhausted⟩) ∧
      (view.visited delimiter visit ⟨position, exhausted⟩).length ≤
        view.source.stop - position + 1 := by
  refine ⟨fun unit moved taken => view.advance_progresses.forward placed taken,
    fun pattern unit moved taken => nextIf_forward placed taken, exists_yields_all placed,
    ?_, ?_, ?_, ?_⟩
  · intro pattern test matched
    obtain ⟨units, last, yields, -, few, counted⟩ := exists_run test placed
    have run : view.countRun pattern position = (.ok units.length, last) :=
      (test_bind matched _ position).trans counted
    exact ⟨units, last, nextIf_eq_nextWith matched ▸ yields, few, Scan.bind_of_ok run, run⟩
  · intro pattern test matched codePoints
    obtain ⟨units, last, yields, -, few, counted⟩ := exists_run (fun unit => !test unit) placed
    have walked : view.walkUntil pattern position = (.ok (), last) :=
      (test_bind matched _ position).trans (Scan.bind_of_ok counted)
    refine ⟨units, last, yields, few, ?_⟩
    rw [← walked]
    exact consumeUntil_walks_or_refused codePoints matched placed
  · intro unit inner layers
    obtain ⟨source, layers⟩ := view
    cases layers
    obtain ⟨skipped, between, yields, betweenPlaced, few, same⟩ := advance_ignoring placed
    refine ⟨skipped, between, yields, betweenPlaced, few, same, ?_⟩
    rw [← same]
    exact peek_eq_advance placed
  · intro α delimiter visit exhausted
    have placedThere : view.Placed (Progress.mk position exhausted).position := placed
    obtain ⟨visits, few⟩ := sweep_visits delimiter visit placedThere
    exact ⟨visits, Nat.le_trans few (Progress.left_le _ _)⟩

/-- Blanks are ignored over a recording and dashes beneath it. A step from the start goes over one
of each; the search for a comma, and the skip beneath the outer layer, end within five units; and
there are at most six segments. -/
theorem scanning_loops_end_nested :
    let inner : List Layer := [.recording 0, .ignoring 0x2D]
    let view : View := ⟨.ofBytes [0x2D, 0x20, 0x61, 0x2C, 0x20], .ignoring 0x20 :: inner⟩
    let comma : Pattern := .literal (.integer 0x2C)
    view.Placed 0 ∧ view.advance 0 = (.ok (some 0x61), 3) ∧ 0 < 3 ∧ 3 ≤ view.source.stop ∧
      (∃ units last, Scan.Yields (view.nextIf (.satisfying fun unit => !(unit == 0x2C))) 0 units
          last ∧ units.length ≤ 5 ∧ view.consumeUntil comma 0 = (.ok (), last)) ∧
      (∃ skipped between,
        Scan.Yields (nextIf ⟨view.source, inner⟩ (.satisfying (· == 0x20))) 0 skipped between ∧
          skipped.length ≤ 5 ∧ view.advance 0 = advance ⟨view.source, inner⟩ between) ∧
      view.Visits comma takeUnits ⟨0, false⟩ (view.visited comma takeUnits ⟨0, false⟩)
        (view.sweep comma takeUnits ⟨0, false⟩) ∧
      (view.visited comma takeUnits ⟨0, false⟩).length ≤ 6 := by
  intro inner view comma
  have accepted : Source.ofInput .bytes (.bytes [0x2D, 0x20, 0x61, 0x2C, 0x20]) =
      .ok view.source := rfl
  have placed : view.Placed 0 :=
    ⟨(Source.wellFormed_ofInput (by rintro text ⟨⟩) accepted).admits_start,
      fun start member => by simp_all [view, inner]⟩
  have taken : view.advance 0 = (.ok (some 0x61), 3) := rfl
  obtain ⟨forward, -, -, -, searches, skips, sweeps⟩ := scanning_loops_end view 0 placed
  obtain ⟨further, inside⟩ := forward 0x61 3 taken
  obtain ⟨skipped, between, skips, -, few, same, -⟩ := skips 0x20 inner rfl
  obtain ⟨visits, fewSegments⟩ := sweeps (List Code) comma takeUnits false
  have notText (text : Text) (isText : comma = .literal (.text text)) :
      ∀ code ∈ text, code ≤ Code.greatest := by
    cases show Pattern.literal (.integer 0x2C) = .literal (.text text) from isText
  obtain ⟨units, last, walks, fewUnits, searched | ⟨unit, refuses, -⟩⟩ :=
    searches comma (· == 0x2C) rfl notText
  · exact ⟨placed, taken, further, inside, ⟨units, last, walks, fewUnits, searched⟩,
      ⟨skipped, between, skips, few, same⟩, visits, fewSegments⟩
  · cases refuses with
    | literal unread => cases unread
    | surrogate leaps isText => cases isText

end View

end RecordScan
