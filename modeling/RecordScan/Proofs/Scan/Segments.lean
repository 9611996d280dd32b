import Mathlib.Data.List.TakeWhile
import RecordScan.Proofs.Scan.Keeping
import RecordScan.Session.Basic

/-!
Contract: splitting a source loses and duplicates nothing.

Owns: what one call for a segment does (`View.nextSegment_eq`), for any view; runs
of such calls up to the refusal of an exhausted splitter (`View.HandsOut`); the
divisions of a view's visible units among segments (`View.Divides`); the tilings of a
source by segments and delimiters (`Source.Tiles`), which are divisions of it; the
proof that a run over a bare source, or over recordings of one, hands out a tiling; and
sweeps of a function that answers on every segment (`View.HandsOut.sweep_eq`).

Does not own: splitting through ignoring layers (`RecordScan.Proofs.Scan.Filtering`).
-/

namespace RecordScan

/-! ## One segment -/

namespace View

variable {view : View} {position : Nat} {delimiter : Pattern} {test : Code → Bool}

/-- The next segment reaches to where a search ends, and the parent to where a step ends from
there. -/
theorem nextSegment_of_search {last moved : Nat} {found : Option Code}
    (admits : view.source.Admits position) (lastAdmits : view.source.Admits last)
    (forward : position ≤ last) (consumed : view.consumeUntil delimiter position = (.ok (), last))
    (taken : view.advance last = (.ok found, moved)) :
    view.nextSegment delimiter ⟨position, false⟩ =
      (.ok (view.part position last), ⟨moved, found.isNone⟩) := by
  have narrowed := admits.bounded_eq lastAdmits forward
  simp only [nextSegment, consumed, taken, bounded, narrowed, Bool.false_eq_true, if_false]
  rfl

/-- The next segment reaches to the first delimiter, and the parent moves past it. Without a
delimiter it is the last one. -/
theorem nextSegment_eq (finds : view.Finds delimiter)
    (matched : delimiter.test? view.mode = .ok test) (placed : view.Placed position) :
    ∃ last moved, view.Placed last ∧ position ≤ last ∧ view.Placed moved ∧ last ≤ moved ∧
      view.visible last = (view.visible position).dropWhile (fun unit => !test unit) ∧
      view.visible moved = (view.visible last).tail ∧
      view.advance last = (.ok (view.visible last).head?, moved) ∧
      view.nextSegment delimiter ⟨position, false⟩ =
        (.ok (view.part position last), ⟨moved, (view.visible last).head?.isNone⟩) := by
  obtain ⟨last, consumed, lastPlaced, forward, lastAhead⟩ :=
    finds.consumeUntil_leaves matched placed
  obtain ⟨moved, taken, movedPlaced, further, movedAhead⟩ :=
    view.reads.advance_leaves lastPlaced
  exact ⟨last, moved, lastPlaced, forward, movedPlaced, further, lastAhead, movedAhead, taken,
    nextSegment_of_search placed.1 lastPlaced.1 forward consumed taken⟩

theorem nextSegment_exhausted (view : View) (delimiter : Pattern) (position : Nat) :
    view.nextSegment delimiter ⟨position, true⟩ = (.error .exhausted, ⟨position, true⟩) :=
  rfl

/-- Segment after segment is handed out, until a call is refused because there are no more. -/
inductive HandsOut (view : View) (delimiter : Pattern) : Progress → List View → Progress → Prop
  | done {progress : Progress}
      (spent : view.nextSegment delimiter progress = (.error .exhausted, progress)) :
      HandsOut view delimiter progress [] progress
  | next {progress moved last : Progress} {segment : View} {segments : List View}
      (given : view.nextSegment delimiter progress = (.ok segment, moved))
      (rest : HandsOut view delimiter moved segments last) :
      HandsOut view delimiter progress (segment :: segments) last

/-! ## Divisions -/

theorem ignoring_mem_part (view : View) (start stop : Nat) {unit : Code} :
    .ignoring unit ∈ (view.part start stop).layers ↔ .ignoring unit ∈ view.layers := by
  simp [part, isKept]

theorem part_visible (start stop position : Nat) :
    (view.part start stop).visible position =
      ((view.source.narrowed start stop).unitsFrom position).filter fun unit =>
        .ignoring unit ∉ view.layers := by
  have partUnstopped : .stopped ∉ (view.part start stop).layers := by simp [part, isKept]
  simp only [visible, visibleThrough_eq_filter partUnstopped, ignoring_mem_part]
  rfl

/-- The units that a part shows come before those that the view shows from its end on. -/
theorem visible_part {start stop : Nat} (unstopped : .stopped ∉ view.layers)
    (startAdmits : view.source.Admits start) (stopAdmits : view.source.Admits stop)
    (ordered : start ≤ stop) :
    view.visible start = (view.part start stop).visible start ++ view.visible stop := by
  rw [part_visible]
  simp only [visible, visibleThrough_eq_filter unstopped]
  rw [startAdmits.unitsFrom_narrowed stopAdmits ordered, List.filter_append]

/-- Where a walk over the leading run of visible units that pass a test ends, it has passed over
just that run. -/
theorem part_visible_of_dropWhile {start stop : Nat} {passes : Code → Bool}
    (unstopped : .stopped ∉ view.layers) (startAdmits : view.source.Admits start)
    (stopAdmits : view.source.Admits stop) (ordered : start ≤ stop)
    (ahead : view.visible stop = (view.visible start).dropWhile passes) :
    (view.part start stop).visible start = (view.visible start).takeWhile passes := by
  have joined := visible_part unstopped startAdmits stopAdmits ordered
  rw [ahead] at joined
  exact List.append_cancel_right (joined.symm.trans List.takeWhile_append_dropWhile.symm)

/-- Parts of a view from a position on. None shows a unit that matches; between two that follow
each other the view shows exactly one unit, which matches, and after the last it shows none. -/
inductive Divides (view : View) (test : Code → Bool) : Nat → List View → Prop
  | last {start stop : Nat} (startAdmits : view.source.Admits start)
      (stopAdmits : view.source.Admits stop) (ordered : start ≤ stop)
      (clear : ∀ unit ∈ (view.part start stop).visible start, test unit = false)
      (spent : view.visible stop = []) :
      Divides view test start [view.part start stop]
  | next {start stop resume : Nat} {unit : Code} {segments : List View}
      (startAdmits : view.source.Admits start) (stopAdmits : view.source.Admits stop)
      (ordered : start ≤ stop)
      (clear : ∀ inner ∈ (view.part start stop).visible start, test inner = false)
      (onward : stop ≤ resume) (between : view.visible stop = unit :: view.visible resume)
      (delimits : test unit = true) (rest : Divides view test resume segments) :
      Divides view test start (view.part start stop :: segments)

namespace Divides

variable {start : Nat} {segments : List View}

theorem admits (divides : view.Divides test start segments) : view.source.Admits start := by
  cases divides with
  | last startAdmits => exact startAdmits
  | next startAdmits => exact startAdmits

theorem head?_start (divides : view.Divides test start segments) :
    segments.head?.map (·.source.start) = some start := by
  cases divides with
  | last => rfl
  | next => rfl

/-- The visible units of the segments are those of the view, split at the matching ones. -/
theorem map_visible (unstopped : .stopped ∉ view.layers)
    (divides : view.Divides test start segments) :
    (segments.map fun segment => segment.visible segment.source.start) =
      (view.visible start).splitOnP test := by
  induction divides with
  | @last start stop startAdmits stopAdmits ordered clear spent =>
      have all := visible_part unstopped startAdmits stopAdmits ordered
      rw [spent, List.append_nil] at all
      rw [all, List.splitOnP_eq_singleton clear]
      rfl
  | @next start stop resume unit segments startAdmits stopAdmits ordered clear _ between delimits
      _ inductionHypothesis =>
      rw [visible_part unstopped startAdmits stopAdmits ordered, between,
        List.splitOnP_append_cons_of_forall_mem clear unit delimits, List.map_cons,
        inductionHypothesis]
      rfl

/-- There is one segment more than there are visible units that match. -/
theorem length_eq (unstopped : .stopped ∉ view.layers)
    (divides : view.Divides test start segments) :
    segments.length = (view.visible start).countP test + 1 := by
  have noneIn {units : List Code} (clear : ∀ unit ∈ units, test unit = false) :
      units.countP test = 0 :=
    List.countP_eq_zero.mpr fun unit member => by simp [clear unit member]
  induction divides with
  | @last start stop startAdmits stopAdmits ordered clear spent =>
      rw [visible_part unstopped startAdmits stopAdmits ordered, spent, List.append_nil,
        noneIn clear]
      rfl
  | @next start stop resume unit segments startAdmits stopAdmits ordered clear _ between delimits
      _ inductionHypothesis =>
      rw [visible_part unstopped startAdmits stopAdmits ordered, between, List.countP_append,
        noneIn clear, List.countP_cons_of_pos delimits, List.length_cons, inductionHypothesis,
        Nat.zero_add]

/-- There is at most one segment more than there are bytes. -/
theorem length_le (unstopped : .stopped ∉ view.layers) (placed : view.Placed start)
    (divides : view.Divides test start segments) :
    segments.length ≤ view.source.stop - start + 1 := by
  have matching := List.countP_le_length (p := test) (l := view.visible start)
  have units := placed.length_visible_le
  rw [divides.length_eq unstopped]
  omega

end Divides

/-! ## Recordings are transparent to splitting -/

/-- A source under recordings alone. -/
def OnlyRecords (view : View) : Prop :=
  ∀ layer ∈ view.layers, ∃ start, layer = .recording start

private theorem OnlyRecords.through {source : Source} {layers : List Layer}
    (onlyRecords : OnlyRecords ⟨source, layers⟩) (delimiter : Pattern) :
    advanceThrough source layers = source.advance ∧
      consumeUntilThrough source delimiter layers = leapUntil source delimiter ∧
      layers.filter isKept = [] := by
  induction layers with
  | nil => exact ⟨by rw [advanceThrough], rfl, rfl⟩
  | cons layer inner inductionHypothesis =>
      obtain ⟨start, rfl⟩ := onlyRecords layer (List.mem_cons_self ..)
      obtain ⟨advanced, leapt, kept⟩ := inductionHypothesis fun other member =>
        onlyRecords other (List.mem_cons_of_mem _ member)
      refine ⟨?_, leapt, kept⟩
      rw [advanceThrough, advanced]

/-- Splitting through recordings is splitting what they record, wherever they start. -/
theorem OnlyRecords.nextSegment_eq_bare (onlyRecords : view.OnlyRecords) (progress : Progress) :
    view.nextSegment delimiter progress =
      nextSegment ⟨view.source, []⟩ delimiter progress := by
  obtain ⟨source, layers⟩ := view
  have bare : OnlyRecords ⟨source, []⟩ := nofun
  obtain ⟨advanced, leapt, kept⟩ := onlyRecords.through delimiter
  obtain ⟨bareAdvanced, bareLeapt, bareKept⟩ := bare.through delimiter
  simp only [nextSegment, consumeUntil, advance, bounded, advanced, leapt, kept, bareAdvanced,
    bareLeapt, bareKept]

end View

/-! ## Tilings -/

namespace Source

/-- Segments that cover a source from a position to its end, with exactly one matching unit
after each segment but the last and none inside any. -/
inductive Tiles (source : Source) (test : Code → Bool) : Nat → List View → Prop
  | last {start : Nat} (startAdmits : source.Admits start)
      (clear : ∀ unit ∈ source.unitsFrom start, test unit = false) :
      Tiles source test start [⟨source.narrowed start source.stop, []⟩]
  | next {start stop : Nat} {unit : Code} {segments : List View}
      (startAdmits : source.Admits start) (stopAdmits : source.Admits stop)
      (ordered : start ≤ stop)
      (clear : ∀ inner ∈ (source.narrowed start stop).unitsFrom start, test inner = false)
      (found : source.UnitAt stop unit) (delimits : test unit = true)
      (rest : Tiles source test (stop + source.mode.unitWidth unit) segments) :
      Tiles source test start (⟨source.narrowed start stop, []⟩ :: segments)

namespace Tiles

variable {source : Source} {test : Code → Bool} {start : Nat} {segments : List View}

/-- A tiling divides the units of its source. -/
theorem divides (tiles : source.Tiles test start segments) :
    View.Divides ⟨source, []⟩ test start segments := by
  induction tiles with
  | last startAdmits clear =>
      exact .last startAdmits startAdmits.admits_stop startAdmits.le_stop clear
        source.unitsFrom_stop
  | next startAdmits stopAdmits ordered clear found delimits _ inductionHypothesis =>
      exact .next startAdmits stopAdmits ordered clear (Nat.le_add_right _ _)
        found.unitsFrom_eq delimits inductionHypothesis

theorem head?_start (tiles : source.Tiles test start segments) :
    segments.head?.map (·.source.start) = some start :=
  tiles.divides.head?_start

theorem getLast?_stop (tiles : source.Tiles test start segments) :
    segments.getLast?.map (·.source.stop) = some source.stop := by
  induction tiles with
  | last => rfl
  | next _ _ _ _ _ _ rest inductionHypothesis =>
      cases rest with
      | last => rfl
      | next => exact inductionHypothesis

/-- The next segment starts past the one matching unit at the end of a segment. -/
theorem start_succ (tiles : source.Tiles test start segments) (index : Nat)
    (within : index + 1 < segments.length) :
    ∃ unit, source.UnitAt segments[index].source.stop unit ∧ test unit = true ∧
      segments[index + 1].source.start =
        segments[index].source.stop + source.mode.unitWidth unit := by
  induction tiles generalizing index with
  | last => simp at within
  | @next start stop unit segments _ _ _ _ found delimits rest inductionHypothesis =>
      cases index with
      | zero =>
          refine ⟨unit, found, delimits, ?_⟩
          cases rest with
          | last => rfl
          | next => rfl
      | succ index => exact inductionHypothesis index (Nat.lt_of_succ_lt_succ within)

/-- Each segment is the source with bounds that it admits, and nothing inside it matches. -/
theorem segment_of_mem (tiles : source.Tiles test start segments) {segment : View}
    (member : segment ∈ segments) :
    ∃ first last, segment = ⟨source.narrowed first last, []⟩ ∧ source.Admits first ∧
      source.Admits last ∧ first ≤ last ∧
      ∀ unit ∈ segment.source.unitsFrom segment.source.start, test unit = false := by
  induction tiles with
  | @last start startAdmits clear =>
      cases List.mem_singleton.mp member
      exact ⟨start, source.stop, rfl, startAdmits, startAdmits.admits_stop, startAdmits.le_stop,
        clear⟩
  | @next start stop unit segments startAdmits stopAdmits ordered clear _ _ _
      inductionHypothesis =>
      rcases List.mem_cons.mp member with isFirst | later
      · subst isFirst
        exact ⟨start, stop, rfl, startAdmits, stopAdmits, ordered, clear⟩
      · exact inductionHypothesis later

/-- The units of a segment are all visible. -/
private theorem visible_of_mem (tiles : source.Tiles test start segments) {segment : View}
    (member : segment ∈ segments) (position : Nat) :
    segment.visible position = segment.source.unitsFrom position := by
  obtain ⟨first, last, rfl, -⟩ := tiles.segment_of_mem member
  rfl

/-- The units of the segments are the units of the source, split at the matching ones. -/
theorem map_unitsFrom (tiles : source.Tiles test start segments) :
    (segments.map fun segment => segment.source.unitsFrom segment.source.start) =
      (source.unitsFrom start).splitOnP test := by
  have divided := tiles.divides.map_visible List.not_mem_nil
  rw [List.map_congr_left fun segment member => tiles.visible_of_mem member _] at divided
  exact divided

/-- There is one segment more than there are matching units. -/
theorem length_eq (tiles : source.Tiles test start segments) :
    segments.length = (source.unitsFrom start).countP test + 1 :=
  tiles.divides.length_eq List.not_mem_nil

/-- There is at most one segment more than there are bytes. -/
theorem length_le (tiles : source.Tiles test start segments) :
    segments.length ≤ source.stop - start + 1 :=
  tiles.divides.length_le List.not_mem_nil ⟨tiles.divides.admits, nofun⟩

end Tiles

end Source

/-! ## Runs of a splitter -/

namespace View

variable {source : Source} {position : Nat} {delimiter : Pattern} {test : Code → Bool}

/-- One call over a bare source: a segment up to a delimiter, or the rest. -/
private theorem nextSegment_bare_cases (matched : delimiter.test? source.mode = .ok test)
    (searchable : delimiter.Searchable source.mode) (admits : source.Admits position) :
    (∃ last unit, source.Admits last ∧ position ≤ last ∧ source.UnitAt last unit ∧
      test unit = true ∧
      (∀ inner ∈ (source.narrowed position last).unitsFrom position, test inner = false) ∧
      nextSegment ⟨source, []⟩ delimiter ⟨position, false⟩ =
        (.ok ⟨source.narrowed position last, []⟩,
          ⟨last + source.mode.unitWidth unit, false⟩)) ∨
    ((∀ unit ∈ source.unitsFrom position, test unit = false) ∧
      nextSegment ⟨source, []⟩ delimiter ⟨position, false⟩ =
        (.ok ⟨source.narrowed position source.stop, []⟩, ⟨source.stop, true⟩)) := by
  obtain ⟨last, moved, lastPlaced, forward, -, -, lastAhead, -, taken, given⟩ :=
    @nextSegment_eq ⟨source, []⟩ position delimiter test (.inr searchable) matched
      ⟨admits, nofun⟩
  have lastAdmits : source.Admits last := lastPlaced.1
  replace lastAhead : source.unitsFrom last =
      (source.unitsFrom position).dropWhile fun unit => !test unit := lastAhead
  replace taken : source.advance last = (.ok (source.unitsFrom last).head?, moved) := taken
  replace given : nextSegment ⟨source, []⟩ delimiter ⟨position, false⟩ =
      (.ok ⟨source.narrowed position last, []⟩,
        ⟨moved, (source.unitsFrom last).head?.isNone⟩) := given
  have consumed := admits.unitsFrom_narrowed_of_dropWhile lastAdmits forward lastAhead
  have clear : ∀ inner ∈ (source.narrowed position last).unitsFrom position,
      test inner = false := by
    intro inner member
    rw [consumed] at member
    simpa using List.mem_takeWhile_imp member
  rcases Nat.lt_or_eq_of_le lastAdmits.le_stop with before | atEnd
  · left
    obtain ⟨unit, found, advanced⟩ := lastAdmits.advance_of_lt before
    rw [advanced, Prod.mk.injEq] at taken
    have delimits : test unit = true := by
      have stopped := List.head?_dropWhile_not (fun unit => !test unit) (source.unitsFrom position)
      rw [← lastAhead, found.unitsFrom_eq] at stopped
      simpa using stopped
    refine ⟨last, unit, lastAdmits, forward, found, delimits, clear, ?_⟩
    rw [given, ← taken.2, found.unitsFrom_eq]
    rfl
  · right
    subst atEnd
    rw [source.advance_stop, Prod.mk.injEq] at taken
    have all : (source.narrowed position source.stop).unitsFrom position =
        source.unitsFrom position := rfl
    rw [all] at clear
    refine ⟨clear, ?_⟩
    rw [given, ← taken.2, source.unitsFrom_stop]
    rfl

/-- From every position of a bare source, calling for segments ends, at the end of the source,
and has handed out a tiling of what was ahead. -/
theorem exists_tiles (matched : delimiter.test? source.mode = .ok test)
    (searchable : delimiter.Searchable source.mode) (admits : source.Admits position) :
    ∃ segments, HandsOut ⟨source, []⟩ delimiter ⟨position, false⟩ segments ⟨source.stop, true⟩ ∧
      source.Tiles test position segments := by
  -- The induction is on the bytes left: a delimiter takes at least one of them.
  induction left : source.stop - position using Nat.strongRecOn generalizing position with
  | ind left inductionHypothesis =>
      rcases nextSegment_bare_cases matched searchable admits with
        ⟨last, unit, lastAdmits, forward, found, delimits, clear, given⟩ | ⟨clear, given⟩
      · have positive := source.mode.unitWidth_pos unit
        have within := found.admits_next.le_stop
        obtain ⟨segments, handsOut, tiles⟩ :=
          inductionHypothesis _ (by omega) found.admits_next rfl
        exact ⟨_ :: segments, .next given handsOut,
          .next admits lastAdmits forward clear found delimits tiles⟩
      · exact ⟨[_], .next given (.done (nextSegment_exhausted _ _ _)), .last admits clear⟩

/-! ## Sweeps -/

section Sweeps

variable {α : Type} {visit : View → Scan α} {answer : View → α} {view : View}
  {progress last : Progress} {segments : List View}

/-- Where a function answers on every segment, a sweep answers all of this, in order. -/
private theorem HandsOut.sweepLoop_eq (handsOut : view.HandsOut delimiter progress segments last)
    (visits : ∀ segment ∈ segments, (visit segment segment.source.start).1 = .ok (answer segment))
    {rounds : Nat} (enough : segments.length < rounds) (results : Array α) :
    view.sweepLoop delimiter visit rounds results progress =
      ⟨results.toList ++ segments.map answer, none, last⟩ := by
  induction handsOut generalizing rounds results with
  | done spent =>
      obtain ⟨rounds, rfl⟩ : ∃ less, rounds = less + 1 := ⟨rounds - 1, by omega⟩
      simp [sweepLoop, spent]
  | @next progress moved last segment segments given _ inductionHypothesis =>
      obtain ⟨rounds, rfl⟩ : ∃ less, rounds = less + 1 := ⟨rounds - 1, by omega⟩
      have visited := visits segment (List.mem_cons_self ..)
      have later := inductionHypothesis
        (fun other member => visits other (List.mem_cons_of_mem segment member))
        (Nat.lt_of_succ_lt_succ enough) (results.push (answer segment))
      simp only [sweepLoop, given, visited, later]
      simp

theorem HandsOut.sweep_eq (handsOut : view.HandsOut delimiter progress segments last)
    (visits : ∀ segment ∈ segments, (visit segment segment.source.start).1 = .ok (answer segment))
    (few : segments.length ≤ view.source.stop - progress.position + 1) :
    view.sweep delimiter visit progress = ⟨segments.map answer, none, last⟩ :=
  handsOut.sweepLoop_eq visits (Nat.lt_succ_of_le few) #[]

end Sweeps

/-! ## The text of a segment -/

/-- Recording the rest of a bare text source answers the units ahead. -/
theorem restText_ahead (admits : source.Admits position) (isText : source.mode = .text) :
    restText (recordFrom ⟨source, []⟩ position) position =
      (.ok (source.unitsFrom position), source.stop) := by
  have consumed : consume (recordFrom ⟨source, []⟩ position) position = (.ok (), source.stop) :=
    rfl
  rw [restText, Scan.bind_of_ok consumed]
  exact @recordedText_of_le (recordFrom ⟨source, []⟩ position) position source.stop isText admits
    admits.admits_stop rfl admits.le_stop

/-- Recording all of a bare text source answers its units. -/
theorem restText_whole (wellFormed : source.WellFormed) (isText : source.mode = .text) :
    restText (recordFrom ⟨source, []⟩ source.start) source.start =
      (.ok (source.unitsFrom source.start), source.stop) :=
  restText_ahead wellFormed.admits_start isText

/-! ## Splitting -/

/-- Calls through recordings hand out what calls over the bare source do. -/
private theorem OnlyRecords.handsOut {view : View} (onlyRecords : view.OnlyRecords)
    {progress last : Progress} {segments : List View}
    (bare : HandsOut ⟨view.source, []⟩ delimiter progress segments last) :
    view.HandsOut delimiter progress segments last := by
  induction bare with
  | done spent => exact .done (by rw [onlyRecords.nextSegment_eq_bare, spent])
  | next given _ inductionHypothesis =>
      exact .next (by rw [onlyRecords.nextSegment_eq_bare, given]) inductionHypothesis

/-- **Splitting loses and duplicates nothing.** From every position of a source, also through
recordings of it, calls for segments end with a refusal. The segments then cover all that was
ahead: each starts where the last ended or past the one matching unit there, no unit inside a
segment matches, there is one segment more than matching units, and each stands at its own start.
The parent is at the end, and further calls are refused and leave it there. In particular the
texts of the segments of a text are that text split at the delimiter. -/
theorem split_tiles_source (view : View) (delimiter : Pattern) (test : Code → Bool)
    (position : Nat) (onlyRecords : view.OnlyRecords) (admits : view.source.Admits position)
    (matched : delimiter.test? view.mode = .ok test)
    (searchable : delimiter.Searchable view.mode) :
    ∃ segments : List View,
      view.HandsOut delimiter ⟨position, false⟩ segments ⟨view.source.stop, true⟩ ∧
      segments.head?.map (·.source.start) = some position ∧
      segments.getLast?.map (·.source.stop) = some view.source.stop ∧
      (∀ (index : Nat) (within : index + 1 < segments.length), ∃ unit encoded,
        view.source.unitAt segments[index].source.stop = .ok (unit, encoded.length) ∧
        view.mode.encodeUnit unit = .ok encoded ∧ test unit = true ∧
        segments[index + 1].source.start = segments[index].source.stop + encoded.length) ∧
      (∀ segment ∈ segments,
        (∃ first last, first ≤ last ∧ segment = ⟨view.source.narrowed first last, []⟩) ∧
        (∀ unit ∈ segment.source.unitsFrom segment.source.start, test unit = false) ∧
        ∀ session : Session, (session.addSegment segment).1.cursors.back? =
          some ⟨segment.source, segment.source.start⟩) ∧
      segments.length = (view.source.unitsFrom position).countP test + 1 ∧
      view.nextSegment delimiter ⟨view.source.stop, true⟩ =
        (.error .exhausted, ⟨view.source.stop, true⟩) ∧
      (∀ (text : Text) (unit : Code), (∀ code ∈ text, code ≤ Code.greatest) →
        Source.ofText text = .ok view.source → position = 0 →
        delimiter = .literal (.text [unit]) →
        (segments.map fun segment =>
          (restText (segment.recordFrom segment.source.start) segment.source.start).1) =
          (text.splitOn unit).map .ok) := by
  obtain ⟨segments, handsOut, tiles⟩ := exists_tiles matched searchable admits
  refine ⟨segments, onlyRecords.handsOut handsOut, tiles.head?_start, tiles.getLast?_stop,
    ?_, ?_, tiles.length_eq, rfl, ?_⟩
  · intro index within
    obtain ⟨unit, found, delimits, startEq⟩ := tiles.start_succ index within
    exact ⟨unit, view.mode.unitBytes unit, found.unitAt_eq,
      Mode.encodeUnit_of_holds found.holds, delimits, startEq⟩
  · intro segment member
    obtain ⟨first, last, segmentEq, -, -, ordered, clear⟩ := tiles.segment_of_mem member
    refine ⟨⟨first, last, ordered, segmentEq⟩, clear, fun session => ?_⟩
    simp [Session.addSegment, Session.addHandle]
  · rintro text unit codePoints accepted rfl rfl
    obtain ⟨isText, unitsEq⟩ := Source.unitsFrom_ofText codePoints accepted
    have testEq : test = (· == unit) := by
      rw [View.mode, isText] at matched
      exact (Except.ok.inj matched).symm
    rw [List.splitOn_eq_splitOnP, ← testEq, ← unitsEq, ← tiles.map_unitsFrom, List.map_map]
    apply List.map_congr_left
    intro segment member
    obtain ⟨first, last, rfl, firstAdmits, lastAdmits, ordered, -⟩ := tiles.segment_of_mem member
    have wellFormed := firstAdmits.wellFormed_narrowed lastAdmits ordered
    show (restText (recordFrom ⟨view.source.narrowed first last, []⟩ _) _).1 = _
    rw [restText_whole wellFormed isText]
    rfl

/-- Adjacent delimiters in the text `a,,é`, through a recording that starts past the position. -/
theorem split_tiles_source_adjacent :
    let view : View := ⟨⟨.text, #[0x61, 0x2C, 0x2C, 0xC3, 0xA9], 0, 5⟩, [.recording 2]⟩
    view.OnlyRecords ∧ view.source.Admits 0 ∧
      ∃ segments, view.HandsOut (.literal (.text [0x2C])) ⟨0, false⟩ segments ⟨5, true⟩ ∧
        segments.length = 3 := by
  have onlyRecords : OnlyRecords ⟨⟨.text, #[0x61, 0x2C, 0x2C, 0xC3, 0xA9], 0, 5⟩,
      [.recording 2]⟩ := by simp [OnlyRecords]
  have accepted : Source.ofInput .text (.text [0x61, 0x2C, 0x2C, 0xE9]) =
      .ok ⟨.text, #[0x61, 0x2C, 0x2C, 0xC3, 0xA9], 0, 5⟩ := rfl
  have admits : Source.Admits ⟨.text, #[0x61, 0x2C, 0x2C, 0xC3, 0xA9], 0, 5⟩ 0 :=
    (Source.wellFormed_ofInput (by rintro text ⟨rfl⟩; decide) accepted).admits_start
  have searchable : (Pattern.literal (.text [0x2C])).Searchable .text := by
    rintro literal unit ⟨rfl⟩ ⟨rfl⟩
    decide
  obtain ⟨segments, handsOut, -, -, -, -, count, -⟩ :=
    split_tiles_source _ _ (· == 0x2C) 0 onlyRecords admits rfl searchable
  exact ⟨onlyRecords, admits, segments, handsOut, count.trans (by decide +kernel)⟩

end View

end RecordScan
