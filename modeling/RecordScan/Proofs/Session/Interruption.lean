import RecordScan.Proofs.Scan.Landing
import RecordScan.Proofs.Session.Backtracking
import RecordScan.Proofs.Session.Handing
import RecordScan.Proofs.Session.Transparency

/-!
Contract: a function that is refused on a segment loses that segment and no other.

Owns: runs of calls for segments that have not come to the end (`View.Gives`), by which a run
to the end is cut at any of its segments; what a sweep does along such a run; and the state
in which a sweep that is refused leaves its splitter.

When the function is called, the parent has passed the delimiter already and the splitter
knows whether this segment was the last. So a refusal leaves nothing to be undone: what is
handed out next is what follows.
-/

namespace RecordScan

namespace View

variable {view segment : View} {delimiter : Pattern} {test : Code → Bool} {position : Nat}
  {progress middle moved final : Progress} {segments before after : List View}

theorem exhausted_of_given (given : view.nextSegment delimiter progress = (.ok segment, moved)) :
    progress.exhausted = false := by
  cases isExhausted : progress.exhausted with
  | false => rfl
  | true =>
      rw [nextSegment, if_pos isExhausted] at given
      cases given

/-- A view that has handed out a segment is able to look for the delimiter. -/
theorem Finds.of_given (unstopped : .stopped ∉ view.layers)
    (placed : view.Placed progress.position)
    (codePoints : ∀ text, delimiter = .literal (.text text) → ∀ code ∈ text, code ≤ Code.greatest)
    (given : view.nextSegment delimiter progress = (.ok segment, moved)) :
    view.Finds delimiter := by
  rcases finds_or_refuses unstopped codePoints with finds | ⟨unit, refuses⟩
  · exact finds
  · obtain ⟨fault, stayed, refused⟩ := (consumeUntil_refusedFor delimiter placed).refused refuses
    simp [nextSegment, exhausted_of_given given, refused] at given

theorem HandsOut.exists_given (handsOut : view.HandsOut delimiter progress segments final)
    (nonempty : segments ≠ []) :
    ∃ segment moved, view.nextSegment delimiter progress = (.ok segment, moved) := by
  cases handsOut with
  | done => exact absurd rfl nonempty
  | next given => exact ⟨_, _, given⟩

/-- A splitter is exhausted exactly if there is nothing that it would hand out. -/
theorem HandsOut.exhausted_iff (handsOut : view.HandsOut delimiter progress segments final)
    (unstopped : .stopped ∉ view.layers) (finds : view.Finds delimiter)
    (matched : delimiter.test? view.mode = .ok test) (placed : view.Placed progress.position) :
    progress.exhausted = true ↔ segments = [] := by
  constructor
  · intro isExhausted
    cases handsOut with
    | done => rfl
    | next given => cases isExhausted.symm.trans (exhausted_of_given given)
  · rintro rfl
    cases handsOut with
    | done spent =>
        by_contra notExhausted
        obtain ⟨position, exhausted⟩ := progress
        obtain rfl : exhausted = false := Bool.eq_false_iff.mpr notExhausted
        obtain ⟨last, moved, -, -, -, given⟩ := nextSegment_lands unstopped finds matched placed
        cases given.symm.trans spent

/-! ## Runs that have not come to the end -/

/-- Segment after segment is handed out. -/
inductive Gives (view : View) (delimiter : Pattern) : Progress → List View → Progress → Prop
  | refl (progress : Progress) : Gives view delimiter progress [] progress
  | next {progress moved final : Progress} {segment : View} {segments : List View}
      (given : view.nextSegment delimiter progress = (.ok segment, moved))
      (rest : Gives view delimiter moved segments final) :
      Gives view delimiter progress (segment :: segments) final

/-- A run to the end is cut before any of its segments. -/
theorem HandsOut.cut (handsOut : view.HandsOut delimiter progress (before ++ after) final) :
    ∃ middle, view.Gives delimiter progress before middle ∧
      view.HandsOut delimiter middle after final := by
  induction before generalizing progress with
  | nil => exact ⟨progress, .refl progress, handsOut⟩
  | cons segment before inductionHypothesis =>
      cases handsOut with
      | next given rest =>
          obtain ⟨middle, gives, later⟩ := inductionHypothesis rest
          exact ⟨middle, .next given gives, later⟩

theorem Gives.not_exhausted (gives : view.Gives delimiter progress segments final)
    (notExhausted : final.exhausted = false) : progress.exhausted = false := by
  cases gives with
  | refl => exact notExhausted
  | next given => exact exhausted_of_given given

/-- Each segment that is not the last takes a delimiter, and so at least one byte. -/
theorem Gives.lands (gives : view.Gives delimiter progress segments final)
    (unstopped : .stopped ∉ view.layers) (finds : view.Finds delimiter)
    (matched : delimiter.test? view.mode = .ok test) (placed : view.Placed progress.position)
    (notExhausted : final.exhausted = false) :
    view.Placed final.position ∧ progress.position + segments.length ≤ final.position := by
  induction gives with
  | refl progress => exact ⟨placed, Nat.le_refl _⟩
  | @next progress moved final segment segments given rest inductionHypothesis =>
      obtain ⟨position, exhausted⟩ := progress
      obtain rfl : exhausted = false := exhausted_of_given given
      obtain ⟨last, landed, isSegment, past, landedPlaced, isGiven⟩ :=
        nextSegment_lands unstopped finds matched placed
      cases given.symm.trans isGiven
      obtain ⟨finalPlaced, count⟩ := inductionHypothesis landedPlaced notExhausted
      refine ⟨finalPlaced, ?_⟩
      cases past with
      | @delimiter place unit shows =>
          have positive := view.source.mode.unitWidth_pos unit
          have forward := isSegment.behind.onward
          have onward := shows.onward
          dsimp only [List.length_cons] at forward count ⊢
          omega
      | spent => cases rest.not_exhausted notExhausted

/-! ## Sweeps along a run -/

section Sweeps

variable {α : Type} {visit other : View → Scan α} {fault : Fault}

/-- What a function finds on a segment, from its start. -/
def onSegment (visit : View → Scan α) (segment : View) : Except Fault α :=
  (visit segment segment.source.start).1

/-- A sweep goes along segments on which its function answers. -/
theorem Gives.sweepLoop_eq (gives : view.Gives delimiter progress segments final)
    {answers : List α} (visits : segments.map (onSegment visit) = answers.map .ok)
    (rounds : Nat) (results : Array α) :
    view.sweepLoop delimiter visit (segments.length + rounds) results progress =
        view.sweepLoop delimiter visit rounds (results ++ answers.toArray) final ∧
      view.visitedLoop delimiter visit (segments.length + rounds) progress =
        segments ++ view.visitedLoop delimiter visit rounds final := by
  induction gives generalizing answers results with
  | refl progress =>
      cases answers with
      | nil => simp
      | cons => cases visits
  | @next progress moved final segment segments given _ inductionHypothesis =>
      cases answers with
      | nil => cases visits
      | cons answer answers =>
          obtain ⟨visited, later⟩ := List.cons.inj visits
          replace visited : (visit segment segment.source.start).1 = .ok answer := visited
          obtain ⟨swept, seen⟩ := inductionHypothesis later (results.push answer)
          rw [List.length_cons, Nat.add_right_comm]
          simp only [sweepLoop, visitedLoop, given, visited, swept, seen]
          simp

end Sweeps

/-! ## Sweeps that are refused -/

/-- How a sweep ends that its function refuses on a segment: with that refusal and the results on
the segments before it, applied to these and to nothing behind them, with the parent right behind
the delimiter of the segment or at the end, and such that the segments that follow are those that
would have followed. -/
structure Interrupts {α : Type} (view : View) (delimiter : Pattern) (test : Code → Bool)
    (visit : View → Scan α) (fault : Fault) (progress : Progress) (before : List View)
    (segment : View) (after : List View) (final : Progress) (sweep : Sweep α) : Prop where
  fault_eq : sweep.fault = some fault
  results : sweep.results.map .ok = before.map (onSegment visit)
  visited : view.visited delimiter visit progress = before ++ [segment]
  unseen : ∀ other : View → Scan α,
    (∀ seen ∈ before ++ [segment], onSegment other seen = onSegment visit seen) →
    view.sweep delimiter other progress = sweep
  past : view.PastSegment test segment.source.stop sweep.progress
  exhausted_iff : sweep.progress.exhausted = true ↔ after = []
  resumes : view.HandsOut delimiter sweep.progress after final

section Interrupts

variable {α : Type} {visit : View → Scan α} {fault : Fault}

/-- Answers on all segments of a list are a list of answers. -/
theorem exists_answers (answers : ∀ seen ∈ segments, ∃ value, onSegment visit seen = .ok value) :
    ∃ values : List α, segments.map (onSegment visit) = values.map .ok := by
  induction segments with
  | nil => exact ⟨[], rfl⟩
  | cons segment segments inductionHypothesis =>
      obtain ⟨value, isValue⟩ := answers segment (List.mem_cons_self ..)
      obtain ⟨values, areValues⟩ := inductionHypothesis fun seen member =>
        answers seen (List.mem_cons_of_mem segment member)
      exact ⟨value :: values, by rw [List.map_cons, List.map_cons, isValue, areValues]⟩

/-- Along a run up to a segment that is refused, a sweep ends where that segment was handed out. -/
theorem Gives.sweep_eq {values : List α} (gives : view.Gives delimiter progress before middle)
    (given : view.nextSegment delimiter middle = (.ok segment, moved))
    (enough : before.length ≤ view.source.stop - progress.position)
    (visits : before.map (onSegment visit) = values.map .ok)
    (refused : onSegment visit segment = .error fault) :
    view.sweep delimiter visit progress = ⟨values, some fault, moved⟩ ∧
      view.visited delimiter visit progress = before ++ [segment] := by
  obtain ⟨rounds, isEnough⟩ : ∃ rounds,
      view.source.stop - progress.position + 2 = before.length + (rounds + 1) :=
    ⟨view.source.stop - progress.position - before.length + 1, by omega⟩
  obtain ⟨swept, seen⟩ := gives.sweepLoop_eq visits (rounds + 1) #[]
  replace refused : (visit segment segment.source.start).1 = .error fault := refused
  rw [sweep, View.visited, isEnough, swept, seen]
  simp [sweepLoop, visitedLoop, given, refused]

theorem HandsOut.interrupts (unstopped : .stopped ∉ view.layers)
    (placed : view.Placed progress.position)
    (codePoints : ∀ text, delimiter = .literal (.text text) → ∀ code ∈ text, code ≤ Code.greatest)
    (matched : delimiter.test? view.mode = .ok test)
    (handsOut : view.HandsOut delimiter progress (before ++ segment :: after) final)
    (answers : ∀ seen ∈ before, ∃ value, onSegment visit seen = .ok value)
    (refused : onSegment visit segment = .error fault) :
    view.Interrupts delimiter test visit fault progress before segment after final
      (view.sweep delimiter visit progress) := by
  obtain ⟨first, next, firstGiven⟩ := handsOut.exists_given (by simp)
  have finds : view.Finds delimiter := .of_given unstopped placed codePoints firstGiven
  obtain ⟨middle, gives, rest⟩ := handsOut.cut
  cases rest with
  | @next _ moved _ _ _ given later =>
      obtain ⟨middlePlaced, count⟩ :=
        gives.lands unstopped finds matched placed (exhausted_of_given given)
      have enough : before.length ≤ view.source.stop - progress.position := by
        have within := middlePlaced.1.le_stop
        omega
      obtain ⟨position, exhausted⟩ := middle
      obtain rfl : exhausted = false := exhausted_of_given given
      obtain ⟨last, landed, -, past, landedPlaced, isGiven⟩ :=
        nextSegment_lands unstopped finds matched middlePlaced
      obtain ⟨values, areValues⟩ := exists_answers answers
      obtain ⟨swept, seen⟩ := gives.sweep_eq given enough areValues refused
      rw [swept]
      cases given.symm.trans isGiven
      refine ⟨rfl, areValues.symm, seen, fun other same => ?_, past, ?_, later⟩
      · have sameBefore : before.map (onSegment other) = before.map (onSegment visit) :=
          List.map_congr_left fun earlier member => same earlier (by simp [member])
        have sameRefusal := (same _ (by simp)).trans refused
        exact (gives.sweep_eq given enough (sameBefore.trans areValues) sameRefusal).1
      · exact later.exhausted_iff unstopped finds matched landedPlaced

end Interrupts

theorem keyValues_of_refused (matched : delimiter.test? view.mode = .ok test) {fault : Fault}
    (refused : (view.sweep delimiter keyValue ⟨position, false⟩).fault = some fault) :
    view.keyValues delimiter position =
      (.error fault, (view.sweep delimiter keyValue ⟨position, false⟩).progress.position) := by
  simp only [keyValues, matched, refused]

end View

/-- The operations that apply a function to the segments that are left. -/
def Operation.Sweeps (task : SegmentTask) (operation : Operation) : Prop :=
  operation = .mapSegments task ∨ operation = .forEachSegment task

namespace Session

variable {session : Session} {origin : Source} {parent : Stack} {index : Nat}

theorem view_unstopped (session : Session) (unstopped : .stopped ∉ parent.layers) :
    .stopped ∉ (session.view parent).layers := by
  intro member
  obtain ⟨layer, inLayers, isStopped⟩ := List.mem_map.mp member
  rw [(session.layer_eq_stopped_iff layer).mp isStopped] at inLayers
  exact unstopped inLayers

/-- A splitter whose sweep is refused is left as the sweep says, over the same view. -/
theorem Sound.step_of_refused_sweep (sound : session.Sound origin) {delimiter : Pattern}
    {exhausted : Bool} {task : SegmentTask} {operation : Operation} {fault : Fault}
    (isSplitter : session.handles[index]? = some (.splitter parent delimiter exhausted))
    (inRange : ∀ recorder, .recorder recorder ∈ parent.layers →
      recorder < session.recorders.size)
    (sweeps : operation.Sweeps task) :
    let sweep := (session.view parent).sweep delimiter task.visit
      ⟨session.position parent, exhausted⟩
    sweep.fault = some fault → ∃ result,
      session.step index operation = some result ∧ result.2.answer = .refused fault ∧
      result.1.view parent = session.view parent ∧
      result.1.position parent = sweep.progress.position ∧
      result.1.handles[index]? = some (.splitter parent delimiter sweep.progress.exhausted) := by
  intro sweep refused
  have hasCursor := sound.handles _ (Array.mem_of_getElem? isSplitter)
  obtain ⟨finished, seen, isDeed⟩ : ∃ finished seen,
      session.deed (.splitter parent delimiter exhausted) operation =
        .ofSweep task sweep finished seen := by
    rcases sweeps with rfl | rfl
    · exact ⟨_, _, rfl⟩
    · exact ⟨_, _, rfl⟩
  have taken := sound.step_eq isSplitter operation
  have stands := sound.position_step isSplitter taken
  rw [isDeed] at taken stands
  refine ⟨_, taken, ?_, ?_, stands, ?_⟩
  · simp only [enact, Deed.ofSweep, refused, Product.answerAt]
  · exact view_enact hasCursor fun recorder member =>
      ⟨inRange recorder member, (Option.some_ne_none recorder).symm⟩
  · rw [enact_handle_kept isSplitter, if_pos rfl]
    rfl

/-- **A refusal on one segment loses that segment only.** Over every accepted buffer and after every
run of steps, take any splitter over a stack that does not stop, with its cursor in all recordings.
Calls for its segments come to an end. Take any of the segments they would hand out, and any
function that answers on those before it and is refused on it. A sweep of that function is then
refused with this fault: it has been applied to the segments up to this one, in order, and to no
other. The parent is right behind the delimiter of the segment, or at its end if there is none, the
splitter is exhausted exactly if the segment was the last, and calls from there on hand out the
segments that follow it. The reading of lines is such a sweep, and so are the two operations on the
splitter, which leave it in this state over the same view. -/
theorem refused_visit_loses_one_segment {mode : Mode} {input : Source.Input} {source : Source}
    (codePoints : ∀ text, input = .text text → ∀ code ∈ text, code ≤ Code.greatest)
    (accepted : Source.ofInput mode input = .ok source) (steps : List (Nat × Operation)) :
    let session := (start source).after steps
    ∀ index parent delimiter exhausted test,
      session.handles[index]? = some (.splitter parent delimiter exhausted) →
      .stopped ∉ parent.layers →
      (∀ recorder, .recorder recorder ∈ parent.layers →
        ∃ place, session.recorders[recorder]? = some place ∧ place ≤ session.position parent) →
      (∀ text, delimiter = .literal (.text text) → ∀ code ∈ text, code ≤ Code.greatest) →
      delimiter.test? mode = .ok test →
      let view := session.view parent
      let progress : Progress := ⟨session.position parent, exhausted⟩
      (view.Finds delimiter → ∃ segments final, view.HandsOut delimiter progress segments final) ∧
      ∀ before segment after final,
        view.HandsOut delimiter progress (before ++ segment :: after) final →
        (∀ (α : Type) (visit : View → Scan α) (fault : Fault),
          (∀ seen ∈ before, ∃ value, View.onSegment visit seen = .ok value) →
          View.onSegment visit segment = .error fault →
          view.Interrupts delimiter test visit fault progress before segment after final
            (view.sweep delimiter visit progress)) ∧
        (∀ fault, (∀ seen ∈ before, ∃ line, View.onSegment View.keyValue seen = .ok line) →
          View.onSegment View.keyValue segment = .error fault →
          view.keyValues delimiter (session.position parent) =
            (.error fault, (view.sweep delimiter View.keyValue progress).progress.position)) ∧
        ∀ (task : SegmentTask) (operation : Operation) (fault : Fault), operation.Sweeps task →
          (∀ seen ∈ before, ∃ reply, View.onSegment task.visit seen = .ok reply) →
          View.onSegment task.visit segment = .error fault →
          let swept := (view.sweep delimiter task.visit progress).progress
          ∃ result, session.step index operation = some result ∧
            result.2.answer = .refused fault ∧ result.1.view parent = view ∧
            result.1.position parent = swept.position ∧
            result.1.handles[index]? = some (.splitter parent delimiter swept.exhausted) := by
  intro session index parent delimiter exhausted test isSplitter unstopped reached delimiterCodes
    matched view progress
  have started := start_sound (Source.wellFormed_ofInput codePoints accepted)
  have sound : session.Sound source := (started.after_onward steps).sound
  have hasCursor := sound.handles _ (Array.mem_of_getElem? isSplitter)
  have placed : view.Placed progress.position := sound.placed hasCursor reached
  have viewUnstopped : .stopped ∉ view.layers := session.view_unstopped unstopped
  have isMode : view.mode = mode :=
    (sound.mode_eq hasCursor).trans (Source.mode_ofInput accepted)
  rw [← isMode] at matched
  refine ⟨fun finds => ?_, fun before segment after final handsOut => ?_⟩
  · cases exhausted with
    | true => exact ⟨[], _, .done (view.nextSegment_exhausted delimiter _)⟩
    | false =>
        obtain ⟨segments, last, handsOut, -⟩ :=
          View.exists_divides viewUnstopped finds matched placed
        exact ⟨segments, _, handsOut⟩
  · have interrupts {α : Type} {visit : View → Scan α} {fault : Fault} :=
      @View.HandsOut.interrupts view segment delimiter test progress final before after α visit
        fault viewUnstopped placed delimiterCodes matched handsOut
    refine ⟨fun α visit fault => interrupts, fun fault answers refused => ?_, ?_⟩
    · obtain ⟨first, next, given⟩ := handsOut.exists_given (by simp)
      obtain rfl : exhausted = false := View.exhausted_of_given given
      exact View.keyValues_of_refused matched (interrupts answers refused).fault_eq
    · intro task operation fault sweeps answers refused
      have inRange (recorder : Nat) (member : .recorder recorder ∈ parent.layers) :
          recorder < session.recorders.size := by
        obtain ⟨place, found, -⟩ := reached recorder member
        exact (Array.getElem?_eq_some_iff.mp found).1
      exact sound.step_of_refused_sweep isSplitter inRange sweeps
        (interrupts answers refused).fault_eq

/-- Three segments through a recorder over ignored blanks, read as texts: the second is the byte
0xFF, which starts no scalar, and the third is still to come. -/
theorem refused_visit_loses_one_segment_of_three :
    let source : Source := .ofBytes [0x61, 0x3B, 0xFF, 0x20, 0x3B, 0x62, 0x20]
    let delimiter : Pattern := .literal (.integer 0x3B)
    let session := (start source).after
      [(0, .ignore (.integer 0x20)), (1, .record), (2, .splitOn delimiter)]
    let view : View := ⟨source, [.recording 0, .ignoring 0x20]⟩
    session.view ⟨0, [.recorder 0, .ignoring 0x20]⟩ = view ∧ session.handles[3]? =
        some (.splitter ⟨0, [.recorder 0, .ignoring 0x20]⟩ delimiter false) ∧
      view.HandsOut delimiter ⟨0, false⟩ ([view.part 0 1] ++ view.part 2 3 :: [view.part 5 6])
        ⟨7, true⟩ ∧
      view.Interrupts delimiter (· == 0x3B) SegmentTask.text.visit (.utf8 2 .startByte) ⟨0, false⟩
        [view.part 0 1] (view.part 2 3) [view.part 5 6] ⟨7, true⟩
        (view.sweep delimiter SegmentTask.text.visit ⟨0, false⟩) ∧
      ∃ result, session.step 3 (.mapSegments .text) = some result ∧
        result.2.answer = .refused (.utf8 2 .startByte) := by
  intro source delimiter session view
  have accepted : Source.ofInput .bytes (.bytes [0x61, 0x3B, 0xFF, 0x20, 0x3B, 0x62, 0x20]) =
      .ok source := rfl
  have isSplitter : session.handles[3]? =
      some (.splitter ⟨0, [.recorder 0, .ignoring 0x20]⟩ delimiter false) := rfl
  have isView : session.view ⟨0, [.recorder 0, .ignoring 0x20]⟩ = view := rfl
  have handsOut : view.HandsOut delimiter ⟨0, false⟩
      ([view.part 0 1] ++ view.part 2 3 :: [view.part 5 6]) ⟨7, true⟩ :=
    .next rfl (.next rfl (.next rfl (.done rfl)))
  have reached (recorder : Nat)
      (member : .recorder recorder ∈ [LayerRef.recorder 0, .ignoring 0x20]) :
      ∃ place, session.recorders[recorder]? = some place ∧ place ≤ 0 := by
    obtain rfl : recorder = 0 := by simpa using member
    exact ⟨0, rfl, Nat.le_refl 0⟩
  have answers (seen : View) (member : seen ∈ [view.part 0 1]) :
      ∃ reply, View.onSegment SegmentTask.text.visit seen = .ok reply := by
    obtain rfl := List.mem_singleton.mp member
    exact ⟨.text [0x61], by cbv⟩
  have notText (text : Text) (isText : delimiter = .literal (.text text)) :
      ∀ code ∈ text, code ≤ Code.greatest := by
    rw [show delimiter = .literal (.integer 0x3B) from rfl] at isText
    cases isText
  have refused : View.onSegment SegmentTask.text.visit (view.part 2 3) =
      .error (.utf8 2 .startByte) := by
    cbv
  obtain ⟨-, loses⟩ := refused_visit_loses_one_segment (by rintro text ⟨⟩) accepted
    [(0, .ignore (.integer 0x20)), (1, .record), (2, .splitOn delimiter)] 3 _ delimiter false
    (· == 0x3B) isSplitter (by decide) reached notText rfl
  obtain ⟨interrupts, -, steps⟩ :=
    loses [view.part 0 1] (view.part 2 3) [view.part 5 6] ⟨7, true⟩ handsOut
  obtain ⟨result, taken, answer, -⟩ :=
    steps .text (.mapSegments .text) _ (.inl rfl) answers refused
  exact ⟨isView, isSplitter, handsOut,
    interrupts Reply SegmentTask.text.visit _ answers refused, result, taken, answer⟩

end Session

end RecordScan
