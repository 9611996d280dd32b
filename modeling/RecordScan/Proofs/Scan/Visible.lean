import RecordScan.Proofs.Scan.Search
import RecordScan.Scan.Consume

/-!
Contract: a view is a list of visible units, and its moves are operations on that
list.

Owns: the units a stack of layers shows (`View.visible`); the positions from which
every layer lets its moves return (`View.Placed`); the simulation of the two
primitive moves by that list, by induction on the layers (`View.reads`); the law
that a leap ends where a walk ends; and what each consumer does to the list.
-/

namespace RecordScan

/-- A pattern that can be looked for by its bytes: a class of units, or a literal whose unit is
not half a surrogate pair. -/
def Pattern.Searchable (pattern : Pattern) (mode : Mode) : Prop :=
  ∀ literal unit, pattern = .literal literal → mode.unit? literal = .ok unit → unit.IsScalar

theorem Literal.lt_of_byte? {literal : Literal} {unit : Code}
    (coerced : literal.byte? = .ok unit) : unit < 0x100 := by
  show (unit : Nat) < 0x100
  simp only [Literal.byte?] at coerced
  split at coerced
  · next value =>
      split at coerced
      · next inRange =>
          cases coerced
          show value.toNat < 0x100
          omega
      · cases coerced
  · next byte =>
      cases coerced
      exact UInt8.toNat_lt byte
  · next code =>
      split at coerced
      · next ascii =>
          cases coerced
          exact Nat.lt_trans ascii (by decide)
      · cases coerced
  · cases coerced

/-- The unit of a literal can stand in a buffer, unless it is half a surrogate pair. -/
theorem Mode.holds_of_unit? {mode : Mode} {literal : Literal} {unit : Code}
    (coerced : mode.unit? literal = .ok unit) (scalar : unit.IsScalar) : mode.Holds unit := by
  cases mode with
  | text => exact scalar
  | bytes => exact Literal.lt_of_byte? coerced

namespace View

/-! ## Visible units -/

/-- The units that layers show ahead of a position. -/
def visibleThrough (source : Source) : List Layer → Nat → List Code
  | [], position => source.unitsFrom position
  | .recording _ :: inner, position => visibleThrough source inner position
  | .ignoring unit :: inner, position =>
      (visibleThrough source inner position).filter (· != unit)
  | .stopped :: _, _ => []

/-- A position of the source before which no recording among the layers starts later. -/
def PlacedThrough (source : Source) (layers : List Layer) (position : Nat) : Prop :=
  source.Admits position ∧ ∀ start, .recording start ∈ layers → start ≤ position

def visible (view : View) (position : Nat) : List Code :=
  visibleThrough view.source view.layers position

/-- A position of the view that lies in all its recordings. -/
def Placed (view : View) (position : Nat) : Prop :=
  PlacedThrough view.source view.layers position

/-- From a position, a scan answers `value` and leaves the units `rest` visible. -/
abbrev Leaves {α : Type} (view : View) (scan : Scan α) (position : Nat) (value : α)
    (rest : List Code) : Prop :=
  Scan.Leaves view.Placed view.visible scan position value rest

variable {source : Source} {layers : List Layer} {position : Nat}

theorem length_visibleThrough_le (placed : PlacedThrough source layers position) :
    (visibleThrough source layers position).length ≤ source.stop - position := by
  obtain ⟨admits, -⟩ := placed
  induction layers with
  | nil => exact admits.length_unitsFrom_le
  | cons layer inner inductionHypothesis =>
      cases layer with
      | recording start => exact inductionHypothesis
      | ignoring unit => exact Nat.le_trans (List.length_filter_le _ _) inductionHypothesis
      | stopped => exact Nat.zero_le _

/-- Where no layer stops, a unit shows unless some layer ignores it. -/
theorem visibleThrough_eq_filter (unstopped : .stopped ∉ layers) (position : Nat) :
    visibleThrough source layers position =
      (source.unitsFrom position).filter fun unit => .ignoring unit ∉ layers := by
  induction layers with
  | nil => exact (List.filter_eq_self.mpr fun unit _ => by simp).symm
  | cons layer inner inductionHypothesis =>
      have innerUnstopped : .stopped ∉ inner := fun member =>
        unstopped (List.mem_cons_of_mem layer member)
      cases layer with
      | recording start => simp [visibleThrough, inductionHypothesis innerUnstopped]
      | ignoring unit =>
          rw [visibleThrough, inductionHypothesis innerUnstopped, List.filter_filter]
          apply List.filter_congr
          intro other _
          by_cases same : other = unit <;> simp [same]
      | stopped => exact absurd (List.mem_cons_self ..) unstopped

/-! ## Moves through layers -/

theorem PlacedThrough.inner {layer : Layer} {inner : List Layer}
    (placed : PlacedThrough source (layer :: inner) position) :
    PlacedThrough source inner position :=
  ⟨placed.1, fun start member => placed.2 start (List.mem_cons_of_mem layer member)⟩

theorem PlacedThrough.of_inner {layer : Layer} {inner : List Layer}
    (placed : PlacedThrough source inner position)
    (started : ∀ start, layer = .recording start → start ≤ position) :
    PlacedThrough source (layer :: inner) position := by
  refine ⟨placed.1, fun start member => ?_⟩
  rcases List.mem_cons.mp member with isLayer | inInner
  · exact started start isLayer.symm
  · exact placed.2 start inInner

/-- A recording shows what is beneath it, and a scan that goes forward stays in it. -/
private theorem leaves_of_inner {α : Type} {start : Nat} {inner : List Layer} {scan : Scan α}
    {value : α} {rest : List Code}
    (placed : PlacedThrough source (.recording start :: inner) position)
    (leaves : Scan.Leaves (PlacedThrough source inner) (visibleThrough source inner) scan
      position value rest) :
    Scan.Leaves (PlacedThrough source (.recording start :: inner))
      (visibleThrough source (.recording start :: inner)) scan position value rest := by
  obtain ⟨moved, answer, movedPlaced, forward, ahead⟩ := leaves
  refine ⟨moved, answer, movedPlaced.of_inner ?_, forward, ahead⟩
  rintro other ⟨rfl⟩
  exact Nat.le_trans (placed.2 start (List.mem_cons_self ..)) forward

/-- Every layer lets a scan return to a place that lies in all recordings. -/
theorem restoreThrough_eq {target : Nat} (placed : PlacedThrough source layers target)
    (position : Nat) : restoreThrough source layers target position = (.ok (), target) := by
  induction layers with
  | nil => exact placed.1.restore_eq position
  | cons layer inner inductionHypothesis =>
      cases layer with
      | recording start =>
          have started : ¬ (target : Int) < start := by
            have := placed.2 start (List.mem_cons_self ..)
            omega
          rw [restoreThrough, if_neg started]
          exact inductionHypothesis placed.inner
      | ignoring unit => exact inductionHypothesis placed.inner
      | stopped => exact inductionHypothesis placed.inner

private theorem head?_filter_ne (unit : Code) (units : List Code) :
    (units.filter (· != unit)).head? = (units.dropWhile (· == unit)).head? := by
  induction units with
  | nil => rfl
  | cons first units inductionHypothesis =>
      by_cases same : first = unit
      · simpa [same] using inductionHypothesis
      · simp [same]

private theorem tail_filter_ne (unit : Code) (units : List Code) :
    (units.filter (· != unit)).tail = (units.dropWhile (· == unit)).tail.filter (· != unit) := by
  induction units with
  | nil => rfl
  | cons first units inductionHypothesis =>
      by_cases same : first = unit
      · simpa [same] using inductionHypothesis
      · simp [same]

/-- Skipping a run of the ignored unit and taking what follows takes the first unit of the
list without the ignored ones. -/
private theorem skipAndAdvance_leaves (unit : Code) {placed : Nat → Prop}
    {ahead : Nat → List Code} {peek advance : Scan (Option Code)}
    (reads : Scan.Reads placed ahead peek advance) (isPlaced : placed position)
    (short : (ahead position).length ≤ source.stop - position) :
    Scan.Leaves placed (fun place => (ahead place).filter (· != unit))
      (skipAndAdvance source unit peek advance) position
      ((ahead position).filter (· != unit)).head?
      ((ahead position).filter (· != unit)).tail := by
  have skipped := reads.countLoop_nextIf (· == unit) 0 isPlaced (Nat.lt_succ_of_le short)
  have taken : Scan.Leaves placed ahead (skipAndAdvance source unit peek advance) position
      ((ahead position).dropWhile (· == unit)).head?
      ((ahead position).dropWhile (· == unit)).tail :=
    skipped.bind fun moved movedPlaced movedAhead =>
      movedAhead ▸ reads.advance_leaves movedPlaced
  obtain ⟨moved, answer, movedPlaced, forward, movedAhead⟩ := taken
  rw [head?_filter_ne, tail_filter_ne]
  exact ⟨moved, answer, movedPlaced, forward, congrArg (List.filter (· != unit)) movedAhead⟩

/-- Through any layers, the moves look at and take the first visible unit. -/
theorem reads_through (source : Source) (layers : List Layer) :
    Scan.Reads (PlacedThrough source layers) (visibleThrough source layers)
      (peekThrough source layers) (advanceThrough source layers) := by
  induction layers with
  | nil =>
      constructor
      · intro position placed
        exact source.reads.peek_eq placed.1
      · intro position placed
        obtain ⟨moved, answer, admits, forward, ahead⟩ := source.reads.advance_leaves placed.1
        exact ⟨moved, answer, ⟨admits, nofun⟩, forward, ahead⟩
  | cons layer inner inductionHypothesis =>
      cases layer with
      | recording start =>
          constructor
          · intro position placed
            exact inductionHypothesis.peek_eq placed.inner
          · intro position placed
            exact leaves_of_inner placed (inductionHypothesis.advance_leaves placed.inner)
      | ignoring unit =>
          have skipped {position : Nat}
              (placed : PlacedThrough source (.ignoring unit :: inner) position) :=
            skipAndAdvance_leaves unit inductionHypothesis placed.inner
              (length_visibleThrough_le placed.inner)
          constructor
          · intro position placed
            -- The layer finds the unit by moving; the way back is open since the place it
            -- came from lies in all recordings.
            obtain ⟨moved, answer, -, -, -⟩ := skipped placed
            rw [peekThrough, Scan.position_bind, Scan.bind_of_ok answer,
              Scan.bind_of_ok (restoreThrough_eq placed.inner moved)]
            rfl
          · intro position placed
            obtain ⟨moved, answer, movedPlaced, forward, ahead⟩ := skipped placed
            rw [advanceThrough]
            exact ⟨moved, answer, movedPlaced.of_inner nofun, forward, ahead⟩
      | stopped =>
          constructor
          · intro position placed
            rw [peekThrough]
            rfl
          · intro position placed
            rw [advanceThrough]
            exact ⟨position, rfl, placed, Nat.le_refl position, rfl⟩

variable {view : View}

theorem reads (view : View) : Scan.Reads view.Placed view.visible view.peek view.advance :=
  reads_through view.source view.layers

theorem Placed.length_visible_le (placed : view.Placed position) :
    (view.visible position).length ≤ view.source.stop - position :=
  length_visibleThrough_le placed

/-! ## Runs -/

theorem test_bind {β : Type} {pattern : Pattern} {test : Code → Bool}
    (matched : pattern.test? view.mode = .ok test) (next : (Code → Bool) → Scan β)
    (position : Nat) : (view.test pattern >>= next) position = next test position :=
  Scan.ofExcept_bind_of_ok matched next position

theorem countWith_leaves (test : Code → Bool) (placed : view.Placed position) :
    view.Leaves (view.countWith test) position ((view.visible position).takeWhile test).length
      ((view.visible position).dropWhile test) := by
  have counted := view.reads.countLoop_nextIf test 0 placed
    (Nat.lt_succ_of_le placed.length_visible_le)
  rw [Nat.zero_add] at counted
  exact counted

theorem countAll_leaves (placed : view.Placed position) :
    view.Leaves view.countAll position (view.visible position).length [] := by
  have counted := view.reads.countLoop_advance 0 placed
    (Nat.lt_succ_of_le placed.length_visible_le)
  rw [Nat.zero_add] at counted
  exact counted

theorem countRun_leaves {pattern : Pattern} {test : Code → Bool}
    (matched : pattern.test? view.mode = .ok test) (placed : view.Placed position) :
    view.Leaves (view.countRun pattern) position
      ((view.visible position).takeWhile test).length
      ((view.visible position).dropWhile test) := by
  obtain ⟨moved, answer, rest⟩ := countWith_leaves test placed
  exact ⟨moved, (test_bind matched _ position).trans answer, rest⟩

theorem walkUntil_leaves {pattern : Pattern} {test : Code → Bool}
    (matched : pattern.test? view.mode = .ok test) (placed : view.Placed position) :
    view.Leaves (view.walkUntil pattern) position ()
      ((view.visible position).dropWhile fun unit => !test unit) := by
  obtain ⟨moved, answer, rest⟩ :=
    (countWith_leaves (fun unit => !test unit) placed).map fun _ => ()
  exact ⟨moved, (test_bind matched _ position).trans answer, rest⟩

/-! ## Leaps -/

private theorem placed_bare (admits : source.Admits position) : Placed ⟨source, []⟩ position :=
  ⟨admits, nofun⟩

private theorem leaves_bare {α : Type} {scan : Scan α} {value : α} {rest : List Code}
    (leaves : Scan.Leaves source.Admits source.unitsFrom scan position value rest) :
    Leaves ⟨source, []⟩ scan position value rest := by
  obtain ⟨moved, answer, admits, forward, ahead⟩ := leaves
  exact ⟨moved, answer, placed_bare admits, forward, ahead⟩

/-- A leap to a literal is a search for the bytes of its unit. -/
theorem leapUntil_literal {literal : Literal} {unit : Code}
    (coerced : source.mode.unit? literal = .ok unit) (holds : source.mode.Holds unit) :
    leapUntil source (.literal literal) = source.seek (source.mode.unitBytes unit) := by
  funext position
  rw [leapUntil, Scan.ofExcept_bind_of_ok coerced,
    Scan.ofExcept_bind_of_ok (Mode.encodeUnit_of_holds holds)]

/-- A leap over a bare source stops before the first unit that matches, or at the end. -/
theorem leapUntil_leaves {pattern : Pattern} {test : Code → Bool}
    (matched : pattern.test? source.mode = .ok test)
    (searchable : pattern.Searchable source.mode) (admits : source.Admits position) :
    Leaves ⟨source, []⟩ (leapUntil source pattern) position ()
      ((source.unitsFrom position).dropWhile fun unit => !test unit) := by
  cases pattern with
  | satisfying given => exact walkUntil_leaves matched (placed_bare admits)
  | literal literal =>
      simp only [Pattern.test?] at matched
      cases coerced : source.mode.unit? literal with
      | error fault =>
          rw [coerced] at matched
          cases matched
      | ok unit =>
          rw [coerced] at matched
          cases matched
          have holds := Mode.holds_of_unit? coerced (searchable literal unit rfl coerced)
          rw [leapUntil_literal coerced holds]
          exact leaves_bare (admits.seek_leaves holds)

/-- What a view is able to look for: through an ignoring layer, which walks, every pattern, and
otherwise those that have bytes. -/
def Finds (view : View) (pattern : Pattern) : Prop :=
  (∃ unit, .ignoring unit ∈ view.layers) ∨ pattern.Searchable view.mode

theorem Finds.consumeUntil_leaves {pattern : Pattern} {test : Code → Bool}
    (finds : view.Finds pattern) (matched : pattern.test? view.mode = .ok test)
    (placed : view.Placed position) :
    view.Leaves (view.consumeUntil pattern) position ()
      ((view.visible position).dropWhile fun unit => !test unit) := by
  obtain ⟨source, layers⟩ := view
  induction layers with
  | nil =>
      rcases finds with ⟨unit, member⟩ | searchable
      · cases member
      · exact leapUntil_leaves matched searchable placed.1
  | cons layer inner inductionHypothesis =>
      cases layer with
      | recording start =>
          have innerFinds : Finds ⟨source, inner⟩ pattern := by
            simpa [Finds, View.mode] using finds
          exact leaves_of_inner placed (inductionHypothesis innerFinds matched placed.inner)
      | ignoring unit => exact walkUntil_leaves matched placed
      | stopped => exact walkUntil_leaves matched placed

theorem consumeUntil_leaves {pattern : Pattern} {test : Code → Bool}
    (matched : pattern.test? view.mode = .ok test)
    (searchable : pattern.Searchable view.mode) (placed : view.Placed position) :
    view.Leaves (view.consumeUntil pattern) position ()
      ((view.visible position).dropWhile fun unit => !test unit) :=
  Finds.consumeUntil_leaves (.inr searchable) matched placed

theorem consume_leaves (placed : view.Placed position) :
    view.Leaves view.consume position () [] := by
  obtain ⟨source, layers⟩ := view
  induction layers with
  | nil =>
      exact ⟨source.stop, rfl, placed_bare placed.1.admits_stop, placed.1.le_stop,
        source.unitsFrom_stop⟩
  | cons layer inner inductionHypothesis =>
      cases layer with
      | recording start => exact leaves_of_inner placed (inductionHypothesis placed.inner)
      | ignoring unit => exact (countAll_leaves placed).map fun _ => ()
      | stopped => exact (countAll_leaves placed).map fun _ => ()

/-- **The leaps of a bare source end where its walks end.** From every position, in either mode
and within any bounds, the search for the bytes of a literal stops exactly where taking unit
after unit stops, and the leap to the end where taking all units does. Half a surrogate pair
has no bytes to search for: it is refused, and the position stays. -/
theorem leap_lands_as_walk (source : Source) (position : Nat) (admits : source.Admits position) :
    (∀ (literal : Literal) (unit : Code), source.mode.unit? literal = .ok unit →
      unit.IsScalar →
      ∃ moved, consumeUntil ⟨source, []⟩ (.literal literal) position = (.ok (), moved) ∧
        walkUntil ⟨source, []⟩ (.literal literal) position = (.ok (), moved)) ∧
    (∃ moved count, consume ⟨source, []⟩ position = (.ok (), moved) ∧
      countAll ⟨source, []⟩ position = (.ok count, moved)) ∧
    (∀ (literal : Literal) (unit : Code), source.mode = .text →
      source.mode.unit? literal = .ok unit → unit.isSurrogate = true →
      consumeUntil ⟨source, []⟩ (.literal literal) position =
        (.error (.unencodable unit), position)) := by
  refine ⟨?_, ?_, ?_⟩
  · intro literal unit coerced scalar
    have matched : (Pattern.literal literal).test? source.mode = .ok (· == unit) := by
      rw [Pattern.test?, coerced]
      rfl
    have searchable : (Pattern.literal literal).Searchable source.mode := by
      rintro other found ⟨rfl⟩ again
      rw [coerced] at again
      cases again
      exact scalar
    obtain ⟨leapt, leapAnswer, leapPlaced, -, leapAhead⟩ :=
      leapUntil_leaves matched searchable admits
    obtain ⟨walked, walkAnswer, walkPlaced, -, walkAhead⟩ :=
      @walkUntil_leaves position ⟨source, []⟩ _ _ matched (placed_bare admits)
    have same : walked = leapt :=
      walkPlaced.1.eq_of_unitsFrom_eq leapPlaced.1 (walkAhead.trans leapAhead.symm)
    exact ⟨leapt, leapAnswer, same ▸ walkAnswer⟩
  · obtain ⟨walked, walkAnswer, walkPlaced, -, walkAhead⟩ :=
      countAll_leaves (placed_bare admits)
    have same : walked = source.stop :=
      walkPlaced.1.eq_of_unitsFrom_eq admits.admits_stop
        (walkAhead.trans source.unitsFrom_stop.symm)
    exact ⟨source.stop, _, rfl, same ▸ walkAnswer⟩
  · intro literal unit isText coerced surrogate
    have refused : source.mode.encodeUnit unit = .error (.unencodable unit) := by
      rw [isText]
      exact if_pos surrogate
    show leapUntil source (.literal literal) position = _
    rw [leapUntil, Scan.ofExcept_bind_of_ok coerced, Scan.ofExcept_bind_of_error refused]

/-- A buffer whose third scalar shares bytes with the needle: `éÃ©` is searched for `©`. -/
theorem leap_lands_as_walk_shared_bytes :
    let source : Source := ⟨.text, #[0xC3, 0xA9, 0xC3, 0x83, 0xC2, 0xA9], 0, 6⟩
    source.Admits 0 ∧
      ∃ moved, consumeUntil ⟨source, []⟩ (.literal (.integer 0xA9)) 0 = (.ok (), moved) ∧
        walkUntil ⟨source, []⟩ (.literal (.integer 0xA9)) 0 = (.ok (), moved) := by
  have accepted : Source.ofInput .text (.text [0xE9, 0xC3, 0xA9]) =
      .ok ⟨.text, #[0xC3, 0xA9, 0xC3, 0x83, 0xC2, 0xA9], 0, 6⟩ := rfl
  have admits : Source.Admits ⟨.text, #[0xC3, 0xA9, 0xC3, 0x83, 0xC2, 0xA9], 0, 6⟩ 0 :=
    (Source.wellFormed_ofInput (by rintro text ⟨rfl⟩; decide) accepted).admits_start
  exact ⟨admits, (leap_lands_as_walk _ 0 admits).1 (.integer 0xA9) 0xA9 rfl (by decide)⟩

/-! ## Counted moves and looking ahead -/

theorem lookAhead_eq {α : Type} {scan : Scan α} {result : Except Fault α} (moved : Nat)
    (placed : view.Placed position) (answer : scan position = (result, moved)) :
    Scan.lookAhead view.restore scan position = (result, position) := by
  have back : view.restore position moved = (.ok (), position) := restoreThrough_eq placed moved
  simp only [Scan.lookAhead, answer, back]

theorem consumeLength_leaves {needed : Int} (placed : view.Placed position)
    (enough : needed ≤ (view.visible position).length) :
    view.Leaves (view.consumeLength needed) position ()
      ((view.visible position).drop needed.toNat) :=
  view.reads.takeLoop_of_enough needed 0 placed (by omega)

theorem consumeLength_refused {needed : Int} (placed : view.Placed position)
    (short : (view.visible position).length < needed) :
    ∃ moved, view.consumeLength needed position =
        (.error (.shortfall needed (view.visible position).length), moved) ∧
      view.Placed moved ∧ position ≤ moved ∧ view.visible moved = [] := by
  have tooMany : (view.visible position).length < needed.toNat := by omega
  have refused := view.reads.takeLoop_of_short needed 0 placed tooMany
  rw [Nat.zero_add] at refused
  exact refused

theorem peekAt_eq {distance : Int} (placed : view.Placed position) (ahead : 1 ≤ distance) :
    view.peekAt distance position =
      (.ok (view.visible position)[distance.toNat - 1]?, position) := by
  have positive : 0 < distance.toNat := by omega
  obtain ⟨moved, answer, -, -⟩ := view.reads.lastLoop_answers none placed positive
  rw [peekAt, if_neg (by omega)]
  exact lookAhead_eq moved placed answer

theorem peekLength_eq (needed : Int) (placed : view.Placed position) :
    ∃ found, view.peekLength needed position = (.ok found, position) ∧
      (found = none ↔ (view.visible position).length < needed) := by
  by_cases enough : needed ≤ (view.visible position).length
  · obtain ⟨moved, answer, -⟩ := consumeLength_leaves placed enough
    refine ⟨some (Utf8.slice view.source.bytes position moved), ?_, ?_⟩
    · apply lookAhead_eq moved placed
      simp only [answer]
    · exact iff_of_false (by simp) (by omega)
  · obtain ⟨moved, refusal, -⟩ := consumeLength_refused placed (Int.not_le.mp enough)
    refine ⟨none, ?_, iff_of_true rfl (Int.not_le.mp enough)⟩
    apply lookAhead_eq moved placed
    simp only [refusal]

/-! ## The simulation -/

/-- **A view acts as the list of its visible units.** From every position that lies in all
recordings of the view, over any stack of layers in either mode, each move answers and leaves
what the operation on the list does. Nothing that only looks moves the position. -/
theorem moves_act_on_visible (view : View) (position : Nat) (placed : view.Placed position) :
    view.peek position = (.ok (view.visible position).head?, position) ∧
    view.Leaves view.advance position (view.visible position).head?
      (view.visible position).tail ∧
    (∀ distance : Int, 1 ≤ distance →
      view.peekAt distance position =
        (.ok (view.visible position)[distance.toNat - 1]?, position)) ∧
    (∀ needed : Int, ∃ found, view.peekLength needed position = (.ok found, position) ∧
      (found = none ↔ (view.visible position).length < needed)) ∧
    view.Leaves view.countAll position (view.visible position).length [] ∧
    view.Leaves view.consume position () [] ∧
    (∀ needed : Int, needed ≤ (view.visible position).length →
      view.Leaves (view.consumeLength needed) position ()
        ((view.visible position).drop needed.toNat)) ∧
    (∀ needed : Int, (view.visible position).length < needed →
      ∃ moved, view.consumeLength needed position =
          (.error (.shortfall needed (view.visible position).length), moved) ∧
        view.Placed moved ∧ position ≤ moved ∧ view.visible moved = []) ∧
    ∀ (pattern : Pattern) (test : Code → Bool), pattern.test? view.mode = .ok test →
      view.Leaves (view.nextIf pattern) position ((view.visible position).head?.filter test)
        (if (view.visible position).head?.any test then (view.visible position).tail
          else view.visible position) ∧
      view.Leaves (view.consumeWhile pattern) position ()
        ((view.visible position).dropWhile test) ∧
      view.Leaves (view.countRun pattern) position
        ((view.visible position).takeWhile test).length
        ((view.visible position).dropWhile test) ∧
      (pattern.Searchable view.mode →
        view.Leaves (view.consumeUntil pattern) position ()
          ((view.visible position).dropWhile fun unit => !test unit)) := by
  refine ⟨view.reads.peek_eq placed, view.reads.advance_leaves placed,
    fun _ ahead => peekAt_eq placed ahead, fun needed => peekLength_eq needed placed,
    countAll_leaves placed, consume_leaves placed,
    fun _ enough => consumeLength_leaves placed enough,
    fun _ short => consumeLength_refused placed short, ?_⟩
  intro pattern test matched
  refine ⟨?_, (countRun_leaves matched placed).map fun _ => (), countRun_leaves matched placed,
    fun searchable => consumeUntil_leaves matched searchable placed⟩
  obtain ⟨moved, answer, rest⟩ := view.reads.nextIf_leaves test placed
  exact ⟨moved, (test_bind matched _ position).trans answer, rest⟩

/-- Two ignoring layers around a recording over the text `a,é`: only `é` is visible. -/
theorem moves_act_on_visible_nested :
    let view : View :=
      ⟨⟨.text, #[0x61, 0x2C, 0xC3, 0xA9], 0, 4⟩,
        [.ignoring 0x2C, .recording 0, .ignoring 0x61]⟩
    view.Placed 0 ∧ view.visible 0 = [0xE9] ∧
      view.Leaves view.advance 0 (view.visible 0).head? (view.visible 0).tail := by
  have accepted : Source.ofInput .text (.text [0x61, 0x2C, 0xE9]) =
      .ok ⟨.text, #[0x61, 0x2C, 0xC3, 0xA9], 0, 4⟩ := rfl
  have admits : Source.Admits ⟨.text, #[0x61, 0x2C, 0xC3, 0xA9], 0, 4⟩ 0 :=
    (Source.wellFormed_ofInput (by rintro text ⟨rfl⟩; decide) accepted).admits_start
  have placed : Placed ⟨⟨.text, #[0x61, 0x2C, 0xC3, 0xA9], 0, 4⟩,
      [.ignoring 0x2C, .recording 0, .ignoring 0x61]⟩ 0 :=
    ⟨admits, fun start member => by simp_all⟩
  exact ⟨placed, by decide +kernel, (moves_act_on_visible _ 0 placed).2.1⟩

end View

end RecordScan
