import RecordScan.Proofs.Scan.Landing
import RecordScan.Proofs.Session.Alike
import RecordScan.Proofs.Session.Transparency

/-!
Contract: neither the order of ignoring layers nor their number shows.

Owns: views of one source that ignore the same units by whatever layers
(`View.IgnoresAlike`), which act alike (`View.IgnoresAlike.actsAlike`) and are split at the
same places; handles, and what a deed makes, that differ in the layers only at the bottom of
a stack (`Handle.Relaid`); and the law that a step by way of either handle shows and leaves
the same.

That such views show the same units is one filter on the units of the source. That they rest
at the same place after each move is not: it is where the places behind units that show are
told apart by what is ahead of them.
-/

namespace RecordScan

open Scan (Alike)

namespace View

variable {view first second : View} {position mark : Nat} {delimiter : Pattern}

/-! ## Views under ignoring layers alone -/

namespace OnlyIgnores

variable (onlyIgnores : view.OnlyIgnores)

include onlyIgnores

theorem finish_eq : view.finish position = view.source.stop :=
  if_neg onlyIgnores.unstopped

theorem recordingStart_eq : view.recordingStart = none := by
  rw [recordingStart, List.findSome?_eq_none_iff]
  intro layer member
  obtain ⟨unit, rfl⟩ := onlyIgnores layer member
  rfl

theorem remaining_eq : view.remaining = do return view.source.stop - (← Scan.position) := by
  obtain ⟨source, layers⟩ := view
  cases layers with
  | nil => rfl
  | cons layer inner =>
      obtain ⟨unit, rfl⟩ := onlyIgnores layer (List.mem_cons_self ..)
      rfl

theorem restore_eq (target : Int) : view.restore target = view.source.restore target := by
  obtain ⟨source, layers⟩ := view
  induction layers with
  | nil => rfl
  | cons layer inner inductionHypothesis =>
      obtain ⟨unit, rfl⟩ := onlyIgnores layer (List.mem_cons_self ..)
      exact inductionHypothesis fun other member =>
        onlyIgnores other (List.mem_cons_of_mem _ member)

/-- A search walks if there is a layer to walk through. -/
theorem consumeUntil_eq (layered : view.layers ≠ []) (pattern : Pattern) :
    view.consumeUntil pattern = view.walkUntil pattern := by
  obtain ⟨source, layers⟩ := view
  cases layers with
  | nil => exact absurd rfl layered
  | cons layer inner =>
      obtain ⟨unit, rfl⟩ := onlyIgnores layer (List.mem_cons_self ..)
      rfl

end OnlyIgnores

theorem layers_of_bounded {start stop : Int} {segment : View}
    (isSegment : view.bounded start stop = .ok segment) :
    segment.layers = view.layers.filter isKept := by
  unfold bounded at isSegment
  cases narrowed : view.source.bounded start stop with
  | error fault =>
      rw [narrowed] at isSegment
      cases isSegment
  | ok source =>
      rw [narrowed] at isSegment
      cases isSegment
      rfl

/-- What a call hands out is a part of the source. -/
theorem exists_part {progress moved : Progress} {segment : View}
    (admits : view.source.Admits progress.position)
    (given : view.nextSegment delimiter progress = (.ok segment, moved)) :
    ∃ start stop, (view.part start stop).source.WellFormed ∧ segment = view.part start stop := by
  obtain ⟨landed, -, ⟨start, stop, wellFormed, isGiven⟩ | ⟨fault, -, refusal⟩⟩ :=
    nextSegment_cases delimiter progress admits.fromSelf
  · cases given.symm.trans isGiven
    exact ⟨start, stop, wellFormed, rfl⟩
  · cases given.symm.trans refusal

/-! ## Views that ignore the same units -/

/-- Two views of one source under ignoring layers alone, which ignore the same units. -/
structure IgnoresAlike (first second : View) : Prop where
  source : second.source = first.source
  onlyIgnores : first.OnlyIgnores
  same : ∀ layer, layer ∈ second.layers ↔ layer ∈ first.layers

namespace IgnoresAlike

variable (alike : IgnoresAlike first second)

include alike

theorem symm : IgnoresAlike second first :=
  ⟨alike.source.symm, fun layer member => alike.onlyIgnores layer ((alike.same layer).mp member),
    fun layer => (alike.same layer).symm⟩

theorem admits (admits : first.source.Admits position) : second.source.Admits position :=
  alike.source ▸ admits

theorem placed (admits : first.source.Admits position) : second.Placed position :=
  alike.symm.onlyIgnores.placed (alike.admits admits)

theorem visible_eq (position : Nat) : second.visible position = first.visible position := by
  rw [visible, visible, visibleThrough_eq_filter alike.onlyIgnores.unstopped,
    visibleThrough_eq_filter alike.symm.onlyIgnores.unstopped, alike.source]
  apply List.filter_congr
  intro unit _
  simp only [alike.same]

theorem behind {place : Nat} (behind : second.Behind mark place) : first.Behind mark place := by
  obtain ⟨placed, onward, tight⟩ := behind
  have admits : first.source.Admits place := alike.symm.admits placed.1
  refine ⟨alike.onlyIgnores.placed admits, onward, ?_⟩
  simpa only [alike.source, alike.same] using tight

/-- A step takes the same unit, and ends at the same place. -/
theorem advance : Alike first.source.Admits first.advance second.advance := by
  intro position admits
  have placed := alike.onlyIgnores.placed admits
  have secondPlaced := alike.placed admits
  have sameAhead := alike.visible_eq position
  cases ahead : first.visible position with
  | nil =>
      rw [advance_of_spent placed ahead, advance_of_spent secondPlaced (sameAhead.trans ahead),
        alike.onlyIgnores.finish_eq, alike.symm.onlyIgnores.finish_eq, alike.source]
      exact ⟨rfl, admits.admits_stop⟩
  | cons unit rest =>
      obtain ⟨place, -, taken, behind, left⟩ := advance_lands placed ahead
      obtain ⟨other, -, otherTaken, otherBehind, otherLeft⟩ :=
        advance_lands secondPlaced (sameAhead.trans ahead)
      rw [alike.visible_eq] at otherLeft
      -- Both steps end right behind a unit that shows, with the same units ahead.
      have samePlace := (alike.behind otherBehind).eq_of_visible_eq alike.onlyIgnores.unstopped
        admits behind (otherLeft.trans left.symm)
      rw [taken, otherTaken, samePlace]
      exact ⟨rfl, behind.placed.1⟩

theorem restore (target : Int) :
    Alike first.source.Admits (first.restore target) (second.restore target) := by
  intro position admits
  rw [alike.symm.onlyIgnores.restore_eq, alike.source, ← alike.onlyIgnores.restore_eq]
  refine ⟨rfl, ?_⟩
  rcases restore_cases admits.toWellFormed target position with
    ⟨place, -, placed, answer⟩ | ⟨fault, -, refusal⟩ | ⟨place, -, -, refusal⟩
  · rw [answer]
    exact placed.1
  · rw [refusal]
    exact admits
  · rw [refusal]
    exact admits

theorem movesAlike : MovesAlike first.source.Admits first second where
  source := alike.source
  recordingStart := by
    rw [alike.symm.onlyIgnores.recordingStart_eq, alike.onlyIgnores.recordingStart_eq]
  remaining := by
    rw [alike.symm.onlyIgnores.remaining_eq, alike.onlyIgnores.remaining_eq, alike.source]
  peek := by
    intro position admits
    rw [first.reads.peek_eq (alike.onlyIgnores.placed admits),
      second.reads.peek_eq (alike.placed admits), alike.visible_eq]
    exact ⟨rfl, admits⟩
  advance := alike.advance
  restore target _ := alike.restore target
  consume := by
    intro position admits
    rw [consume_eq (alike.onlyIgnores.placed admits), consume_eq (alike.placed admits),
      alike.onlyIgnores.finish_eq, alike.symm.onlyIgnores.finish_eq, alike.source]
    exact ⟨rfl, admits.admits_stop⟩

/-- Without layers both views are the bare source, and leap; otherwise both walk. -/
theorem consumeUntil (pattern : Pattern) :
    Alike first.source.Admits (first.consumeUntil pattern) (second.consumeUntil pattern) := by
  have noneIff : second.layers = [] ↔ first.layers = [] := by
    simp only [List.eq_nil_iff_forall_not_mem, alike.same]
  by_cases bare : first.layers = []
  · have sameSearch : second.consumeUntil pattern = first.consumeUntil pattern := by
      rw [View.consumeUntil, View.consumeUntil, alike.source, bare, noneIff.mpr bare]
    intro position admits
    have kept := first.consumeUntil_keeps pattern position admits.fromSelf
    exact ⟨congrFun sameSearch position, kept.1.toAdmits⟩
  · rw [alike.onlyIgnores.consumeUntil_eq bare,
      alike.symm.onlyIgnores.consumeUntil_eq (mt noneIff.mp bare)]
    exact alike.movesAlike.walkUntil pattern

theorem keyValue : Alike first.source.Admits first.keyValue second.keyValue :=
  keyValue_alike alike.source alike.advance alike.movesAlike.consume (alike.consumeUntil _)

/-! ### Segments -/

/-- One more layer on both. -/
theorem ignoring (unit : Code) :
    IgnoresAlike ⟨first.source, .ignoring unit :: first.layers⟩
      ⟨second.source, .ignoring unit :: second.layers⟩ where
  source := alike.source
  onlyIgnores layer member := by
    rcases List.mem_cons.mp member with rfl | inInner
    · exact ⟨unit, rfl⟩
    · exact alike.onlyIgnores layer inInner
  same layer := by simp only [List.mem_cons, alike.same]

theorem relaid (start stop : Nat) :
    IgnoresAlike (first.part start stop) (relaid second.layers (first.part start stop)) where
  source := rfl
  onlyIgnores layer member := alike.onlyIgnores layer (List.mem_filter.mp member).1
  same layer := by simp only [View.relaid, part, List.mem_filter, alike.same]

/-- A function that does alike on all such views finds the same on both segments of a call. -/
theorem visits {α : Type} {visit : View → Scan α}
    (does : ∀ {one two : View}, IgnoresAlike one two →
      Alike one.source.Admits (visit one) (visit two))
    {progress moved : Progress} {segment : View} (admits : first.source.Admits progress.position)
    (given : first.nextSegment delimiter progress = (.ok segment, moved)) :
    (visit (View.relaid second.layers segment) segment.source.start).1 =
      (visit segment segment.source.start).1 := by
  obtain ⟨start, stop, wellFormed, rfl⟩ := exists_part admits given
  exact congrArg Prod.fst (does (alike.relaid start stop) _ wellFormed.admits_start).1

theorem sweep {α : Type} {visit : View → Scan α}
    (does : ∀ {one two : View}, IgnoresAlike one two →
      Alike one.source.Admits (visit one) (visit two))
    {progress : Progress} (admits : first.source.Admits progress.position) :
    second.sweep delimiter visit progress = first.sweep delimiter visit progress ∧
      first.source.Admits (first.sweep delimiter visit progress).progress.position :=
  sweep_alike alike.source alike.advance (alike.consumeUntil delimiter) (alike.visits does) admits

theorem actsAlike : ActsAlike first.source.Admits first second where
  toMovesAlike := alike.movesAlike
  outermost start := by
    have absent (view : View) (onlyIgnores : view.OnlyIgnores) :
        view.layers.head? ≠ some (.recording start) := fun isHead =>
      onlyIgnores.unrecorded start (List.mem_of_mem_head? isHead)
    exact iff_of_false (absent second alike.symm.onlyIgnores) (absent first alike.onlyIgnores)
  consumeUntil := alike.consumeUntil
  keyValues delimiter :=
    keyValues_alike alike.source fun _ admits => alike.sweep IgnoresAlike.keyValue admits

theorem handsOut {progress final : Progress} {segments : List View}
    (handsOut : first.HandsOut delimiter progress segments final)
    (admits : first.source.Admits progress.position) :
    second.HandsOut delimiter progress (segments.map (View.relaid second.layers)) final := by
  have calls {progress : Progress} (admits : first.source.Admits progress.position) :=
    nextSegment_alike alike.source alike.advance (alike.consumeUntil delimiter) admits
  induction handsOut with
  | done spent =>
      have same := (calls admits).1
      rw [spent] at same
      exact .done same
  | next given rest inductionHypothesis =>
      obtain ⟨same, lands⟩ := calls admits
      rw [given] at same lands
      exact .next same (inductionHypothesis lands)

/-- Calls hand out the same parts of the source, and end alike. -/
theorem exists_handsOut {progress final : Progress} {bounds : List Source}
    (admits : first.source.Admits progress.position)
    (splits : ∃ segments, first.HandsOut delimiter progress segments final ∧
      segments.map View.source = bounds) :
    ∃ segments, second.HandsOut delimiter progress segments final ∧
      segments.map View.source = bounds := by
  obtain ⟨segments, handsOut, areBounds⟩ := splits
  refine ⟨_, alike.handsOut handsOut admits, ?_⟩
  rw [List.map_map]
  exact areBounds

end IgnoresAlike

end View

open View (IgnoresAlike)

/-- A function on segments does alike on segments that ignore the same units, unless it describes
them. -/
theorem SegmentTask.visit_alike {task : SegmentTask} (plain : task ≠ .describe)
    {first second : View} (alike : IgnoresAlike first second) :
    Alike first.source.Admits (task.visit first) (task.visit second) := by
  have moves := alike.movesAlike
  have recorded (mark : Nat) := View.RecordsAlike.ofRecordFrom alike.source mark
  have sameMode := moves.mode_eq
  unfold SegmentTask.visit
  cases task with
  | describe => exact absurd rfl plain
  | bounds =>
      rw [alike.source]
      exact .pure _
  | text =>
      exact View.record_alike fun mark _ => ((recorded mark).restText moves.consume).map _
  | textIfValid =>
      exact View.record_alike fun mark _ => ((recorded mark).restText? moves.consume).map _
  | bytes =>
      exact View.record_alike fun mark _ => ((recorded mark).restBytes moves.consume).map _
  | units =>
      rw [sameMode]
      exact moves.takeUnits.map _
  | count => exact moves.countAll.map _
  | countRun pattern => exact (moves.countRun pattern).map _
  | countIgnoring ignored pattern =>
      simp only [View.ignore, sameMode]
      cases first.mode.unit? ignored with
      | error fault => exact .refuse fault
      | ok unit => exact ((alike.ignoring unit).movesAlike.countRun pattern).map _
  | number => exact moves.number.map _
  | wholeNumber => exact moves.wholeNumber.map _
  | keyValue => exact alike.keyValue.map _

/-! ## Handles over other layers -/

/-- The same cursor under other layers. -/
def Stack.relaid (others : List LayerRef) (stack : Stack) : Stack :=
  ⟨stack.cursor, others⟩

/-- Handles of one kind over one cursor, under the same layers above two lists of layers. -/
def Handle.Relaid (layers others : List LayerRef) (first second : Handle) : Prop :=
  ∃ above, first.stack.layers = above ++ layers ∧
    second = first.onStack (Stack.relaid (above ++ others))

/-- The operations that show the layers themselves. -/
def Operation.Describes : Operation → Prop
  | .describe | .mapSegments .describe | .forEachSegment .describe => True
  | _ => False

namespace Session

variable {session : Session} {operation : Operation} {layers others : List LayerRef}

/-- What is made differs at most in the layers of a handle. -/
inductive Product.Relaid (layers others : List LayerRef) : Product → Product → Prop
  | answer (given : Answer) : Relaid layers others (.answer given) (.answer given)
  | mark : Relaid layers others .mark .mark
  | recorder : Relaid layers others .recorder .recorder
  | handle {first second : Handle} (made : first.Relaid layers others second) :
      Relaid layers others (.handle first) (.handle second)
  | segment {first second : View} (source : second.source = first.source)
      (isFirst : layersOf first = layers) (isSecond : layersOf second = others) :
      Relaid layers others (.segment first) (.segment second)

/-- A new recorder lies on top, and a segment is under the layers themselves. -/
theorem Product.Relaid.handle? {stack : Stack} {first second : Product}
    (relaid : Relaid stack.layers others first second) (cursor recorder : Nat) :
    List.Forall₂ (Handle.Relaid stack.layers others)
      (first.handle? stack cursor recorder).toList
      (second.handle? (stack.relaid others) cursor recorder).toList := by
  cases relaid with
  | answer => exact .nil
  | mark => exact .nil
  | recorder => exact .cons ⟨[.recorder recorder], rfl, rfl⟩ .nil
  | handle made => exact .cons made .nil
  | segment source isFirst isSecond =>
      simp only [Product.handle?, isFirst, isSecond]
      exact .cons ⟨[], rfl, rfl⟩ .nil

/-- Deeds that differ at most in the layers of a handle that is made. -/
inductive Deed.Relaid (layers others : List LayerRef) : Deed → Deed → Prop
  | mk {first second : Product} (products : first.Relaid layers others second) (position : Nat)
      (exhausted : Bool) (seen : Option (List Reply)) (events : List Event) :
      Relaid layers others ⟨position, exhausted, first, seen, events⟩
        ⟨position, exhausted, second, seen, events⟩

namespace Deed.Relaid

theorem still {first second : Product} (products : first.Relaid layers others second)
    (here : Nat) : Relaid layers others (.still here first) (.still here second) :=
  .mk products here false none []

theorem unsupported (here : Nat) :
    Relaid layers others (.still here (.answer .unsupported))
      (.still here (.answer .unsupported)) :=
  still (.answer _) here

theorem ofScan {placed : Nat → Prop} {first second : Scan Reply} (does : Alike placed first second)
    {here : Nat} (isPlaced : placed here) (events : Except Fault Reply → List Event) :
    Relaid layers others (.ofScan (first here) (events (first here).1))
      (.ofScan (second here) (events (second here).1)) := by
  rw [(does here isPlaced).1]
  exact .mk (.answer _) _ _ _ _

theorem ofSweep (task : SegmentTask) (sweep : View.Sweep Reply) (finished : Reply)
    (seen : Option (List Reply)) :
    Relaid layers others (.ofSweep task sweep finished seen)
      (.ofSweep task sweep finished seen) :=
  .mk (.answer _) _ _ _ _

theorem ofChecked {α : Type} {here : Nat} {checked : Except Fault α} {first second : α → Product}
    (products : ∀ value, checked = .ok value →
      (first value).Relaid layers others (second value)) :
    Relaid layers others (.ofChecked here checked first) (.ofChecked here checked second) := by
  cases checked with
  | ok value => exact still (products value rfl) here
  | error fault => exact still (.answer _) here

end Deed.Relaid

/-! ## Deeds by way of other layers -/

theorem Deed.ofChecked_map {α β : Type} (here : Nat) (checked : Except Fault α) (change : α → β)
    (make : β → Product) :
    ofChecked here (checked.map change) make =
      ofChecked here checked fun value => make (change value) := by
  cases checked with
  | ok value => rfl
  | error fault => rfl

/-- Without a recorder on top there is nothing to rebase. -/
theorem Deed.ofCursor_rebase {stack : Stack}
    (unrecorded : ∀ recorder, .recorder recorder ∉ stack.layers) (view : View) (here : Nat) :
    ofCursor stack view here none .rebase = still here (.answer .unsupported) := by
  obtain ⟨cursor, layers⟩ := stack
  rcases layers with _ | ⟨recorder | _ | _, inner⟩
  · rfl
  · exact absurd (List.mem_cons_self ..) (unrecorded recorder)
  · rfl
  · rfl

/-- A segment of a stack of ignoring layers has all of them. -/
theorem layersOf_kept (session : Session)
    (ignoring : ∀ layer ∈ layers, ∃ unit, layer = .ignoring unit) (source : Source) :
    Product.layersOf ⟨source, (layers.map session.layer).filter View.isKept⟩ = layers := by
  induction layers with
  | nil => rfl
  | cons layer inner inductionHypothesis =>
      obtain ⟨unit, rfl⟩ := ignoring layer (List.mem_cons_self ..)
      exact congrArg (LayerRef.ignoring unit :: ·) (inductionHypothesis fun other member =>
        ignoring other (List.mem_cons_of_mem _ member))

section Relaid

variable {stack : Stack} (ignoring : ∀ layer ∈ stack.layers, ∃ unit, layer = .ignoring unit)
  (same : ∀ layer, layer ∈ others ↔ layer ∈ stack.layers)

include ignoring same

theorem view_relaid (session : Session) :
    IgnoresAlike (session.view stack) (session.view (stack.relaid others)) where
  source := rfl
  onlyIgnores layer member := by
    obtain ⟨reference, inLayers, rfl⟩ := List.mem_map.mp member
    obtain ⟨unit, rfl⟩ := ignoring reference inLayers
    exact ⟨unit, rfl⟩
  same layer := by simp only [view, Stack.relaid, List.mem_map, same]

theorem product_segment_relaid (session : Session) {segment : View}
    (isKept : segment.layers = (session.view stack).layers.filter View.isKept) :
    Product.Relaid stack.layers others (.segment segment)
      (.segment (View.relaid (session.view (stack.relaid others)).layers segment)) := by
  have othersIgnore (layer : LayerRef) (member : layer ∈ others) : ∃ unit, layer = .ignoring unit :=
    ignoring layer ((same layer).mp member)
  obtain ⟨source, _⟩ := segment
  subst isKept
  exact .segment rfl (session.layersOf_kept ignoring source)
    (session.layersOf_kept othersIgnore source)

theorem ofCursor_relaid (session : Session) {placed : Nat → Prop} {here : Nat}
    {first second : Option (Scan Reply)} (scans : Option.Rel (Alike placed) first second)
    (isPlaced : placed here) (operation : Operation) :
    Deed.Relaid stack.layers others (.ofCursor stack (session.view stack) here first operation)
      (.ofCursor (stack.relaid others) (session.view (stack.relaid others)) here second
        operation) := by
  have unrecorded (recorder : Nat) : .recorder recorder ∉ stack.layers := by
    intro member
    obtain ⟨unit, isIgnoring⟩ := ignoring _ member
    cases isIgnoring
  cases scans with
  | some does => exact .ofScan does isPlaced (eventsOf operation)
  | none =>
      cases operation with
      | checkpoint => exact .still .mark here
      | record => exact .still .recorder here
      | rebase =>
          rw [Deed.ofCursor_rebase unrecorded, Deed.ofCursor_rebase fun recorder member =>
            unrecorded recorder ((same _).mp member)]
          exact .unsupported here
      | splitOn delimiter => exact .ofChecked fun _ _ => .handle ⟨[], rfl, rfl⟩
      | ignore given => exact .ofChecked fun unit _ => .handle ⟨[.ignoring unit], rfl, rfl⟩
      | stop => exact .still (.handle ⟨[.stopped], rfl, rfl⟩) here
      | bounded first last =>
          simp only [Deed.ofCursor]
          rw [@View.bounded_relaid (session.view stack) (session.view (stack.relaid others)) rfl,
            Deed.ofChecked_map]
          exact .ofChecked fun segment isSegment =>
            product_segment_relaid ignoring same session (View.layers_of_bounded isSegment)
      | whileClass pattern =>
          have made : (Handle.run stack pattern).Relaid stack.layers others
              (.run (stack.relaid others) pattern) := ⟨[], rfl, rfl⟩
          exact .still (.handle made) here
      | whileUnit pattern => exact .ofChecked fun _ _ => .handle ⟨[], rfl, rfl⟩
      | _ => exact .unsupported here

theorem ofSplitter_relaid (session : Session) {here : Nat}
    (admits : (session.view stack).source.Admits here) (delimiter : Pattern) (exhausted : Bool)
    (plain : ¬ operation.Describes) :
    Deed.Relaid stack.layers others
      (.ofSplitter (session.view stack) here delimiter exhausted operation)
      (.ofSplitter (session.view (stack.relaid others)) here delimiter exhausted operation) := by
  have alike := view_relaid ignoring same session
  have sweeps (task : SegmentTask) (isPlain : task ≠ .describe) :=
    @IgnoresAlike.sweep _ _ delimiter alike _ _ (SegmentTask.visit_alike isPlain)
      ⟨here, exhausted⟩ admits
  cases operation with
  | next =>
      have sameCall := (@View.nextSegment_alike _ _ _ delimiter ⟨here, exhausted⟩ alike.source
        alike.advance (alike.consumeUntil delimiter) admits).1
      simp only [Deed.ofSplitter, sameCall]
      cases given : (session.view stack).nextSegment delimiter ⟨here, exhausted⟩ with
      | mk answer moved =>
          cases answer with
          | error fault => exact .mk (.answer _) _ _ _ _
          | ok segment =>
              obtain ⟨start, stop, -, rfl⟩ := View.exists_part admits given
              exact .mk (product_segment_relaid ignoring same session rfl) _ _ _ _
  | mapSegments task =>
      have isSwept := (sweeps task (by rintro rfl; exact plain trivial)).1
      simp only [Deed.ofSplitter, isSwept]
      exact .ofSweep task _ _ _
  | forEachSegment task =>
      have isSwept := (sweeps task (by rintro rfl; exact plain trivial)).1
      simp only [Deed.ofSplitter, isSwept]
      exact .ofSweep task _ _ _
  | _ => exact .mk (.answer _) _ _ _ _

/-- One step by way of other layers does the same, but for the layers of what it makes. -/
theorem Sound.deed_relaid {origin : Source} {handle : Handle} (sound : session.Sound origin)
    (isStack : handle.stack = stack) (hasCursor : stack.cursor < session.cursors.size)
    (plain : ¬ operation.Describes) :
    Deed.Relaid stack.layers others (session.deed handle operation)
      (session.deed (handle.onStack (Stack.relaid others)) operation) := by
  subst isStack
  have alike := view_relaid ignoring same session
  have admits : (session.view handle.stack).source.Admits (session.position handle.stack) :=
    sound.admits hasCursor
  cases handle with
  | cursor stack =>
      have describes (isDescribe : operation = .describe) :
          Alike (session.view stack).source.Admits (session.view stack).describe
            (session.view (stack.relaid others)).describe := by
        subst isDescribe
        exact absurd trivial plain
      have scans := session.scanOf_alike alike.actsAlike (fun _ _ => alike.restore) describes
      exact ofCursor_relaid ignoring same session scans admits operation
  | run stack pattern =>
      have moves := alike.movesAlike
      cases operation with
      | consume =>
          exact .ofScan ((moves.countRun pattern).map Reply.count) admits fun _ => []
      | consumeAtLeast needed =>
          exact .ofScan ((moves.countAtLeast pattern needed).map Reply.count) admits fun _ => []
      | _ => exact .unsupported _
  | splitter parent delimiter exhausted =>
      exact ofSplitter_relaid ignoring same session admits delimiter exhausted plain

end Relaid

/-! ## Steps by way of other layers -/

/-- Two steps of a session show and leave the same, save that the handles they make are over two
lists of layers. -/
structure AgreesOver (session : Session) (layers others : List LayerRef)
    (first second : Session × Outcome) : Prop where
  outcome : first.2 = second.2
  cursors : first.1.cursors = second.1.cursors
  recorders : first.1.recorders = second.1.recorders
  marks : first.1.marks = second.1.marks
  made : List.Forall₂ (Handle.Relaid layers others)
    (first.1.handles.toList.drop session.handles.size)
    (second.1.handles.toList.drop session.handles.size)

theorem Deed.Relaid.agreesOver {handle : Handle} {first second : Deed}
    (relaid : Relaid handle.stack.layers others first second) (index other : Nat) :
    session.AgreesOver handle.stack.layers others (session.enact index handle first)
      (session.enact other (handle.onStack (Stack.relaid others)) second) := by
  have stack_eq : (handle.onStack (Stack.relaid others)).stack = handle.stack.relaid others :=
    handle.stack_onStack _
  have exhausted_eq : (handle.onStack (Stack.relaid others)).exhausted? = handle.exhausted? :=
    handle.exhausted?_onStack _
  cases relaid with
  | mk products position exhausted seen events =>
      have made := products.handle? session.cursors.size session.recorders.size
      rw [← stack_eq] at made
      refine ⟨?_, ?_, ?_, ?_, by rwa [drop_enact_handles, drop_enact_handles]⟩
      · simp only [enact, exhausted_eq]
        cases products with
        | _ => rfl
      · rw [enact_cursors, enact_cursors, stack_eq]
        cases products with
        | segment source => simp only [Product.cursor?, source, Stack.relaid]
        | _ => rfl
      · cases products with
        | _ => rfl
      · cases products with
        | _ => rfl

/-- **Ignoring layers commute, and repeating one changes nothing.** Over every accepted buffer and
after every run of steps, take any handle over a stack of ignoring layers alone, and one of the same
kind over any stack of the same layers over the same cursor, in any order and with any repetitions.
Every operation but a description of the layers then shows the same by way of both handles, a
refusal and the position afterwards included, leaves all cursors, recorders and marks the same, and
makes the same handles but for these layers. Both are split at the same places by any delimiter. -/
theorem ignoring_layers_commute {mode : Mode} {input : Source.Input} {source : Source}
    (codePoints : ∀ text, input = .text text → ∀ code ∈ text, code ≤ Code.greatest)
    (accepted : Source.ofInput mode input = .ok source) (steps : List (Nat × Operation)) :
    let session := (start source).after steps
    ∀ (first second : Nat) handle others, session.handles[first]? = some handle →
      session.handles[second]? = some (handle.onStack (Stack.relaid others)) →
      (∀ layer ∈ handle.stack.layers, ∃ unit, layer = .ignoring unit) →
      (∀ layer, layer ∈ others ↔ layer ∈ handle.stack.layers) →
      (∀ operation, ¬ operation.Describes →
        ∃ one two, session.step first operation = some one ∧
          session.step second operation = some two ∧
          session.AgreesOver handle.stack.layers others one two) ∧
      ∀ delimiter exhausted bounds final,
        let progress : Progress := ⟨session.position handle.stack, exhausted⟩
        (∃ segments, (session.view handle.stack).HandsOut delimiter progress segments final ∧
          segments.map View.source = bounds) ↔
        ∃ segments, (session.view (handle.stack.relaid others)).HandsOut delimiter progress
            segments final ∧ segments.map View.source = bounds := by
  intro session first second handle others isFirst isSecond ignoring same
  have started := start_sound (Source.wellFormed_ofInput codePoints accepted)
  have sound : session.Sound source := (started.after_onward steps).sound
  have hasCursor := sound.handles _ (Array.mem_of_getElem? isFirst)
  refine ⟨fun operation plain => ?_, ?_⟩
  · have relaid := sound.deed_relaid ignoring same rfl hasCursor plain
    exact ⟨_, _, sound.step_eq isFirst operation, sound.step_eq isSecond operation,
      relaid.agreesOver first second⟩
  · intro delimiter exhausted bounds final progress
    have alike := view_relaid ignoring same session
    have admits : (session.view handle.stack).source.Admits progress.position :=
      sound.admits hasCursor
    exact ⟨alike.exists_handsOut admits, alike.symm.exists_handsOut (alike.admits admits)⟩

/-- Blanks and dashes are ignored in one order, and in the other with the blanks twice, over the
bytes ` -a- ;b `. -/
theorem ignoring_layers_commute_blanks_dashes :
    let source : Source := .ofBytes [0x20, 0x2D, 0x61, 0x2D, 0x20, 0x3B, 0x62, 0x20]
    let session := (start source).after
      [(0, .ignore (.integer 0x20)), (1, .ignore (.integer 0x2D)),
        (0, .ignore (.integer 0x20)), (3, .ignore (.integer 0x2D)),
        (4, .ignore (.integer 0x20))]
    let layers : List LayerRef := [.ignoring 0x2D, .ignoring 0x20]
    let others : List LayerRef := [.ignoring 0x20, .ignoring 0x2D, .ignoring 0x20]
    session.handles[2]? = some (.cursor ⟨0, layers⟩) ∧
      session.handles[5]? = some (.cursor ⟨0, others⟩) ∧
      ∃ one two, session.step 2 .advance = some one ∧ session.step 5 .advance = some two ∧
        session.AgreesOver layers others one two := by
  intro source session layers others
  have accepted : Source.ofInput .bytes
      (.bytes [0x20, 0x2D, 0x61, 0x2D, 0x20, 0x3B, 0x62, 0x20]) = .ok source := rfl
  have isFirst : session.handles[2]? = some (.cursor ⟨0, layers⟩) := rfl
  have isSecond : session.handles[5]? =
      some ((Handle.cursor ⟨0, layers⟩).onStack (Stack.relaid others)) := rfl
  have ignoring (layer : LayerRef) (member : layer ∈ layers) :
      ∃ unit, layer = .ignoring unit := by
    simp only [layers, List.mem_cons, List.not_mem_nil, or_false] at member
    rcases member with rfl | rfl
    · exact ⟨_, rfl⟩
    · exact ⟨_, rfl⟩
  have same (layer : LayerRef) : layer ∈ others ↔ layer ∈ layers := by
    simp only [layers, others, List.mem_cons, List.not_mem_nil, or_false]
    tauto
  obtain ⟨commutes, -⟩ := ignoring_layers_commute (by rintro text ⟨⟩) accepted
    [(0, .ignore (.integer 0x20)), (1, .ignore (.integer 0x2D)),
      (0, .ignore (.integer 0x20)), (3, .ignore (.integer 0x2D)),
      (4, .ignore (.integer 0x20))] 2 5 _ others isFirst isSecond ignoring same
  exact ⟨isFirst, isSecond, commutes .advance nofun⟩

end Session

end RecordScan
