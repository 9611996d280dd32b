import RecordScan.Proofs.Scan.Resting
import RecordScan.Proofs.Scan.Transparency

/-!
Contract: where a view comes to rest when nothing is left to take.

Owns: the place where a step ends that finds no unit (`View.finish`), which is where the
counted and the plain way to the end come to rest; and the place where the ways that look
before they step come to rest, which may lie before it.

A plain step through an ignoring layer skips what is ignored and then takes what follows,
so at the end of the units that show it has moved over the ignored ones behind them. A
step that looks first stays. The two kinds of ways end at one place unless the last unit
ahead is an ignored one.
-/

namespace RecordScan

/-! ## Loops up to the end -/

namespace Scan

/-- A loop of plain steps ends where the step ends that yields nothing. -/
theorem Yields.countLoop_eq {move : Scan (Option Code)} {position last : Nat} {units : List Code}
    (yields : Yields move position units last) {rounds : Nat} (count : Nat)
    (enough : units.length < rounds) :
    countLoop move rounds count position = (.ok (count + units.length), last) := by
  induction yields generalizing rounds count with
  | done spent =>
      cases rounds with
      | zero => exact absurd enough (Nat.not_lt_zero _)
      | succ rounds =>
          rw [countLoop, bind_of_ok spent]
          rfl
  | next taken rest inductionHypothesis =>
      cases rounds with
      | zero => exact absurd enough (Nat.not_lt_zero _)
      | succ rounds =>
          rw [countLoop, bind_of_ok taken]
          refine (inductionHypothesis (count + 1) (Nat.lt_of_succ_lt_succ enough)).trans ?_
          rw [List.length_cons, Nat.add_right_comm]
          rfl

namespace Reads

variable {placed : Nat → Prop} {ahead : Nat → List Code} {peek advance : Scan (Option Code)}
  {position : Nat} (reads : Reads placed ahead peek advance)

include reads

/-- If all places with nothing ahead send a plain step to one place, plain steps yield up to
there. -/
theorem yields_to {last : Nat} (isPlaced : placed position)
    (spent : ∀ place, placed place → ahead place = [] → advance place = (.ok none, last)) :
    Yields advance position (ahead position) last := by
  induction units : ahead position generalizing position with
  | nil => exact .done (spent position isPlaced units)
  | cons unit rest inductionHypothesis =>
      obtain ⟨moved, answer, movedPlaced, -, movedAhead⟩ := reads.advance_leaves isPlaced
      rw [units] at answer movedAhead
      exact .next answer (inductionHypothesis movedPlaced movedAhead)

/-- A loop of conditional steps stays where nothing is ahead. -/
theorem countLoop_nextIf_of_spent (test : Code → Bool) (rounds count : Nat)
    (isPlaced : placed position) (spent : ahead position = []) :
    countLoop (nextIf peek advance test) (rounds + 1) count position =
      (.ok count, position) := by
  have stays := reads.nextIf_of_no_match test isPlaced (by simp [spent])
  rw [countLoop, bind_of_ok stays]
  rfl

end Reads

end Scan

theorem Source.Admits.unitsFrom_eq_nil_iff {source : Source} {position : Nat}
    (admits : source.Admits position) :
    source.unitsFrom position = [] ↔ position = source.stop := by
  constructor
  · intro nothing
    exact admits.eq_of_unitsFrom_eq admits.admits_stop (nothing.trans source.unitsFrom_stop.symm)
  · rintro rfl
    exact source.unitsFrom_stop

namespace View

variable {source : Source} {layers : List Layer} {view : View} {position : Nat}

/-! ## Steps that find nothing -/

theorem visibleThrough_of_stopped (stopped : .stopped ∈ layers) (position : Nat) :
    visibleThrough source layers position = [] := by
  induction layers with
  | nil => cases stopped
  | cons layer inner inductionHypothesis =>
      cases layer with
      | recording start => exact inductionHypothesis (by simpa using stopped)
      | ignoring unit =>
          rw [visibleThrough, inductionHypothesis (by simpa using stopped), List.filter_nil]
      | stopped => rfl

/-- A plain step that finds nothing has gone over all that is ignored, unless a layer stops it. -/
theorem advanceThrough_of_spent (placed : PlacedThrough source layers position)
    (spent : visibleThrough source layers position = []) :
    advanceThrough source layers position =
      (.ok none, if .stopped ∈ layers then position else source.stop) := by
  induction layers generalizing position with
  | nil =>
      obtain rfl := placed.1.unitsFrom_eq_nil_iff.mp spent
      exact source.advance_stop
  | cons layer inner inductionHypothesis =>
      cases layer with
      | recording start =>
          have through := inductionHypothesis placed.inner spent
          simpa [advanceThrough] using through
      | ignoring unit =>
          have reads := reads_through source inner
          by_cases stopped : .stopped ∈ inner
          · -- Nothing shows beneath this layer, so neither the skip nor the step moves.
            have nothing := @visibleThrough_of_stopped source inner stopped position
            have skipped := reads.countLoop_nextIf_of_spent (· == unit)
              (source.stop - position) 0 placed.inner nothing
            have through := inductionHypothesis placed.inner nothing
            rw [if_pos stopped] at through
            rw [advanceThrough, if_pos (List.mem_cons_of_mem _ stopped)]
            exact (Scan.bind_of_ok skipped).trans through
          · have allSkipped :
                (visibleThrough source inner position).dropWhile (· == unit) = [] := by
              simpa [visibleThrough, List.dropWhile_eq_nil_iff] using spent
            obtain ⟨between, answer, betweenPlaced, -, nothing⟩ :=
              reads.countLoop_nextIf (· == unit) 0 placed.inner
                (Nat.lt_succ_of_le (length_visibleThrough_le placed.inner))
            have through := inductionHypothesis betweenPlaced (nothing.trans allSkipped)
            rw [if_neg stopped] at through
            rw [advanceThrough, if_neg (by simpa using stopped)]
            exact (Scan.bind_of_ok answer).trans through
      | stopped => simp [advanceThrough]

/-- Where a step from a position ends if it finds no unit. -/
def finish (view : View) (position : Nat) : Nat :=
  if .stopped ∈ view.layers then position else view.source.stop

theorem advance_of_spent (placed : view.Placed position) (spent : view.visible position = []) :
    view.advance position = (.ok none, view.finish position) :=
  advanceThrough_of_spent placed spent

theorem finish_eq_self_iff (placed : view.Placed position) :
    view.finish position = position ↔
      .stopped ∈ view.layers ∨ view.source.unitsFrom position = [] := by
  rw [placed.1.unitsFrom_eq_nil_iff, finish]
  split
  · next stopped => simp [stopped]
  · next unstopped => simp [unstopped, eq_comm]

/-! ## Plain ways to the end -/

theorem countAll_eq (placed : view.Placed position) :
    view.countAll position = (.ok (view.visible position).length, view.finish position) := by
  have yields : Scan.Yields view.advance position (view.visible position)
      (view.finish position) := by
    by_cases stopped : .stopped ∈ view.layers
    · have nothing : view.visible position = [] := visibleThrough_of_stopped stopped position
      rw [nothing]
      exact .done (advance_of_spent placed nothing)
    · apply view.reads.yields_to placed
      intro place placePlaced nothing
      rw [advance_of_spent placePlaced nothing, finish, finish, if_neg stopped, if_neg stopped]
  have counted := yields.countLoop_eq 0 (Nat.lt_succ_of_le placed.length_visible_le)
  rw [Nat.zero_add] at counted
  exact counted

theorem consume_eq (placed : view.Placed position) :
    view.consume position = (.ok (), view.finish position) := by
  obtain ⟨source, layers⟩ := view
  induction layers with
  | nil => rfl
  | cons layer inner inductionHypothesis =>
      cases layer with
      | recording start =>
          refine (inductionHypothesis placed.inner).trans ?_
          simp [finish]
      | ignoring unit => exact Scan.bind_of_ok (countAll_eq placed)
      | stopped => exact Scan.bind_of_ok (countAll_eq placed)

/-! ## Ways that look first -/

theorem countRun_of_spent (pattern : Pattern) {test : Code → Bool}
    (matched : pattern.test? view.mode = .ok test) (placed : view.Placed position)
    (spent : view.visible position = []) : view.countRun pattern position = (.ok 0, position) :=
  (test_bind matched _ position).trans
    (view.reads.countLoop_nextIf_of_spent test (view.source.stop - position) 0 placed spent)

/-- A class of units is walked to, whatever the layers are. -/
theorem consumeUntil_satisfying (view : View) (test : Code → Bool) :
    view.consumeUntil (.satisfying test) = view.walkUntil (.satisfying test) := by
  obtain ⟨source, layers⟩ := view
  induction layers with
  | nil => rfl
  | cons layer inner inductionHypothesis =>
      cases layer with
      | recording start =>
          exact inductionHypothesis.trans (walkUntil_recordFrom ⟨source, inner⟩ start _).symm
      | ignoring unit => rfl
      | stopped => rfl

/-- A search through a stopped layer walks, whatever it looks for. -/
theorem consumeUntil_of_stopped (stopped : .stopped ∈ view.layers) (pattern : Pattern) :
    view.consumeUntil pattern = view.walkUntil pattern := by
  obtain ⟨source, layers⟩ := view
  induction layers with
  | nil => cases stopped
  | cons layer inner inductionHypothesis =>
      cases layer with
      | recording start =>
          refine (inductionHypothesis (by simpa using stopped)).trans ?_
          exact (walkUntil_recordFrom ⟨source, inner⟩ start pattern).symm
      | ignoring unit => rfl
      | stopped => rfl

/-- To walk up to a unit of no kind is to take a run of units of any kind. -/
theorem consumeUntil_nothing (view : View) :
    view.consumeUntil (.satisfying fun _ => false) =
      view.consumeWhile (.satisfying fun _ => true) := by
  rw [consumeUntil_satisfying]
  rfl

/-- Nothing that shows is left where a run of units of any kind ends. -/
theorem exists_rest (placed : view.Placed position) :
    ∃ rest, view.consumeWhile (.satisfying fun _ => true) position = (.ok (), rest) ∧
      view.Behind position rest ∧ view.visible rest = [] ∧
      (.stopped ∈ view.layers → rest = position) := by
  have matched : (Pattern.satisfying fun _ => true).test? view.mode = .ok fun _ => true := rfl
  obtain ⟨rest, answer, -, -, ahead⟩ := countRun_leaves matched placed
  have behind := countRun_rests (.satisfying fun _ => true) position placed.behind
  rw [answer] at behind
  refine ⟨rest, Scan.bind_of_ok answer, behind, ?_, fun stopped => ?_⟩
  · exact ahead.trans (List.dropWhile_eq_nil_iff.mpr fun _ _ => rfl)
  · have stays := countRun_of_spent _ matched placed (visibleThrough_of_stopped stopped position)
    exact (Prod.mk.inj (answer.symm.trans stays)).2

/-- Behind the last unit that shows there are ignored ones only. -/
theorem ignored_of_spent (unstopped : .stopped ∉ view.layers)
    (spent : view.visible position = []) :
    ∀ unit ∈ view.source.unitsFrom position, .ignoring unit ∈ view.layers := by
  intro unit member
  rw [visible, visibleThrough_eq_filter unstopped, List.filter_eq_nil_iff] at spent
  simpa using spent unit member

theorem Behind.eq_stop_iff {rest : Nat} (behind : view.Behind position rest)
    (placed : view.Placed position) (unstopped : .stopped ∉ view.layers)
    (spent : view.visible rest = []) :
    rest = view.source.stop ↔
      ∀ unit ∈ (view.source.unitsFrom position).getLast?, .ignoring unit ∉ view.layers := by
  have cut := placed.1.unitsFrom_narrowed behind.placed.1 behind.onward
  constructor
  · rintro rfl unit isLast
    rw [cut, view.source.unitsFrom_stop, List.append_nil] at isLast
    exact behind.getLast?_unitsFrom placed.1 isLast
  · intro lastShows
    apply behind.placed.1.unitsFrom_eq_nil_iff.mp
    rcases List.eq_nil_or_concat (view.source.unitsFrom rest) with nothing | ⟨before, unit, ends⟩
    · exact nothing
    · have ignored : .ignoring unit ∈ view.layers :=
        ignored_of_spent unstopped spent unit (by simp [ends])
      have isLast : unit ∈ (view.source.unitsFrom position).getLast? := by
        simp [cut, ends]
      exact absurd ignored (lastShows unit isLast)

/-- **Where exhaustion ends.** From every position that lies in all recordings of a view, over any
stack of layers, a step finds no unit exactly if none shows. It then ends at the end of the bounds,
or stays if a layer stops it: so it stays exactly if a layer stops it or no unit of the source is
left, ignored ones included. The leap to the end and the count of all units end there too. A run of
units of any kind and the walk to a unit of no kind both end at one place, behind which there are
ignored units only. It is the same place if a layer stops the view or no layer ignores the last
unit ahead, and an earlier one otherwise. -/
theorem exhaustion_ends (view : View) (position : Nat) (placed : view.Placed position) :
    (∀ moved, view.advance position = (.ok none, moved) ↔
      view.visible position = [] ∧ moved = view.finish position) ∧
    (view.finish position = position ↔
      .stopped ∈ view.layers ∨ view.source.unitsFrom position = []) ∧
    view.consume position = (.ok (), view.finish position) ∧
    view.countAll position = (.ok (view.visible position).length, view.finish position) ∧
    ∃ rest, view.consumeWhile (.satisfying fun _ => true) position = (.ok (), rest) ∧
      view.consumeUntil (.satisfying fun _ => false) position = (.ok (), rest) ∧
      position ≤ rest ∧ rest ≤ view.finish position ∧
      (.stopped ∉ view.layers →
        ∀ unit ∈ view.source.unitsFrom rest, .ignoring unit ∈ view.layers) ∧
      (rest = view.finish position ↔ .stopped ∈ view.layers ∨
        ∀ unit ∈ (view.source.unitsFrom position).getLast?, .ignoring unit ∉ view.layers) := by
  obtain ⟨rest, answer, behind, spent, stays⟩ := exists_rest placed
  refine ⟨fun moved => ⟨fun found => ?_, ?_⟩, finish_eq_self_iff placed, consume_eq placed,
    countAll_eq placed, rest, answer, (consumeUntil_nothing view) ▸ answer, behind.onward, ?_,
    fun unstopped => ignored_of_spent unstopped spent, ?_⟩
  · obtain ⟨last, taken, -⟩ := view.reads.advance_leaves placed
    have nothing : view.visible position = [] := by
      rw [found] at taken
      exact List.head?_eq_none_iff.mp (Except.ok.inj (Prod.mk.inj taken).1).symm
    rw [advance_of_spent placed nothing] at found
    exact ⟨nothing, (Prod.mk.inj found).2.symm⟩
  · rintro ⟨nothing, rfl⟩
    exact advance_of_spent placed nothing
  · rw [finish]
    split
    · next stopped => exact Nat.le_of_eq (stays stopped)
    · exact behind.placed.1.le_stop
  · rw [finish]
    split
    · next stopped => exact iff_of_true (stays stopped) (.inl stopped)
    · next unstopped =>
        rw [behind.eq_stop_iff placed unstopped spent]
        simp [unstopped]

/-- A blank behind the last byte that shows: the leap goes past it, and a run stays before it. -/
theorem exhaustion_ends_before_blank :
    let view : View := ⟨.ofBytes [0x61, 0x20], [.ignoring 0x20, .recording 0]⟩
    view.Placed 0 ∧ view.consume 0 = (.ok (), 2) ∧
      ∃ rest, view.consumeWhile (.satisfying fun _ => true) 0 = (.ok (), rest) ∧ rest ≠ 2 := by
  intro view
  have accepted : Source.ofInput .bytes (.bytes [0x61, 0x20]) = .ok (.ofBytes [0x61, 0x20]) := rfl
  have placed : view.Placed 0 :=
    ⟨(Source.wellFormed_ofInput (by rintro text ⟨⟩) accepted).admits_start,
      fun start member => by simp_all [view]⟩
  obtain ⟨-, -, leapt, -, rest, answer, -, -, -, -, ends⟩ := exhaustion_ends view 0 placed
  refine ⟨placed, leapt, rest, answer, fun isEnd => ?_⟩
  rcases ends.mp isEnd with stopped | shows
  · exact absurd stopped (by decide)
  · exact shows 0x20 rfl (by decide)

/-- Over two blanks that are ignored no byte shows. A step finds nothing and ends past them, where
the leap to the end and the count end; a run of any bytes and a walk to none stay before them. -/
theorem spent_step_moves_over_ignored :
    let view : View := ⟨.ofBytes [0x20, 0x20], [.ignoring 0x20]⟩
    view.advance 0 = (.ok none, 2) ∧ view.consume 0 = (.ok (), 2) ∧
      view.countAll 0 = (.ok 0, 2) ∧
      view.consumeWhile (.satisfying fun _ => true) 0 = (.ok (), 0) ∧
      view.consumeUntil (.satisfying fun _ => false) 0 = (.ok (), 0) := by
  refine ⟨?_, ?_, ?_, ?_, ?_⟩ <;> rfl

end View

end RecordScan
