import RecordScan.Proofs.Scan.Position

/-!
Contract: moves that read a list of units, and the loops made of them.

Owns: the simulation of scans by lists (`Scan.Leaves`, `Scan.Reads`): a pair of
moves reads a list if looking answers its head and advancing answers its head and
leaves its tail. Every loop over such a pair is an operation on the list, by one
induction each, and advancing again and again yields the list (`Scan.Yields`). The
moves of a bare source are the first such pair.

Does not own: layers, which make new pairs from old ones
(`RecordScan.Proofs.Scan.Visible`).
-/

namespace RecordScan

namespace Scan

/-- From a position, a scan answers `value` and stops, no earlier, at a place with the units
`rest` ahead. -/
def Leaves {α : Type} (placed : Nat → Prop) (ahead : Nat → List Code) (scan : Scan α)
    (position : Nat) (value : α) (rest : List Code) : Prop :=
  ∃ moved, scan position = (.ok value, moved) ∧ placed moved ∧ position ≤ moved ∧
    ahead moved = rest

/-- Two moves that look at, and take, the first of the units ahead of each place. -/
structure Reads (placed : Nat → Prop) (ahead : Nat → List Code)
    (peek advance : Scan (Option Code)) : Prop where
  peek_eq : ∀ {position}, placed position →
    peek position = (.ok (ahead position).head?, position)
  advance_leaves : ∀ {position}, placed position →
    Leaves placed ahead advance position (ahead position).head? (ahead position).tail

/-- A move made again and again yields units one by one, and then nothing. -/
inductive Yields (move : Scan (Option Code)) : Nat → List Code → Nat → Prop
  | done {position moved : Nat} (spent : move position = (.ok none, moved)) :
      Yields move position [] moved
  | next {position moved last : Nat} {unit : Code} {units : List Code}
      (taken : move position = (.ok (some unit), moved)) (rest : Yields move moved units last) :
      Yields move position (unit :: units) last

variable {α β : Type} {placed : Nat → Prop} {ahead : Nat → List Code}
  {peek advance : Scan (Option Code)} {position : Nat}

theorem Leaves.bind {scan : Scan α} {next : α → Scan β} {value : α} {found : β}
    {middle rest : List Code} (first : Leaves placed ahead scan position value middle)
    (second : ∀ moved, placed moved → ahead moved = middle →
      Leaves placed ahead (next value) moved found rest) :
    Leaves placed ahead (scan >>= next) position found rest := by
  obtain ⟨between, answer, betweenPlaced, forward, betweenAhead⟩ := first
  obtain ⟨moved, lastAnswer, movedPlaced, further, movedAhead⟩ :=
    second between betweenPlaced betweenAhead
  refine ⟨moved, ?_, movedPlaced, Nat.le_trans forward further, movedAhead⟩
  rw [bind_of_ok answer, lastAnswer]

theorem Leaves.map {scan : Scan α} {value : α} {rest : List Code} (answer : α → β)
    (leaves : Leaves placed ahead scan position value rest) :
    Leaves placed ahead (scan >>= fun found => pure (answer found)) position (answer value)
      rest :=
  leaves.bind fun moved movedPlaced movedAhead =>
    ⟨moved, rfl, movedPlaced, Nat.le_refl moved, movedAhead⟩

namespace Reads

variable (reads : Reads placed ahead peek advance)

include reads

/-! ## One step -/

theorem nextIf_of_match (test : Code → Bool) (isPlaced : placed position) {unit : Code}
    {rest : List Code} (aheadEq : ahead position = unit :: rest) (passes : test unit = true) :
    Leaves placed ahead (nextIf peek advance test) position (some unit) rest := by
  have looked := reads.peek_eq isPlaced
  have taken := reads.advance_leaves isPlaced
  rw [aheadEq] at looked taken
  unfold nextIf
  refine Leaves.bind ⟨position, looked, isPlaced, Nat.le_refl position, aheadEq⟩ ?_
  intro moved movedPlaced movedAhead
  have takenThere := reads.advance_leaves movedPlaced
  rw [movedAhead] at takenThere
  simpa [passes] using takenThere

theorem nextIf_of_no_match (test : Code → Bool) (isPlaced : placed position)
    (fails : ∀ unit rest, ahead position = unit :: rest → test unit = false) :
    nextIf peek advance test position = (.ok none, position) := by
  have looked := reads.peek_eq isPlaced
  unfold nextIf
  rw [bind_of_ok looked]
  cases aheadEq : ahead position with
  | nil => rfl
  | cons unit rest => simp [fails unit rest aheadEq]

/-- The next unit is taken exactly if it passes the test. -/
theorem nextIf_leaves (test : Code → Bool) (isPlaced : placed position) :
    Leaves placed ahead (nextIf peek advance test) position
      ((ahead position).head?.filter test)
      (if (ahead position).head?.any test then (ahead position).tail else ahead position) := by
  cases aheadEq : ahead position with
  | nil =>
      refine ⟨position, ?_, isPlaced, Nat.le_refl position, by simp [aheadEq]⟩
      apply reads.nextIf_of_no_match test isPlaced
      intro unit rest isCons
      rw [aheadEq] at isCons
      cases isCons
  | cons unit rest =>
      cases passes : test unit with
      | true =>
          simpa [Option.filter_some, passes] using
            reads.nextIf_of_match test isPlaced aheadEq passes
      | false =>
          refine ⟨position, ?_, isPlaced, Nat.le_refl position, by simp [aheadEq, passes]⟩
          simp only [List.head?_cons, Option.filter_some, passes, Bool.false_eq_true, if_false]
          apply reads.nextIf_of_no_match test isPlaced
          intro other others isCons
          rw [aheadEq] at isCons
          cases isCons
          exact passes

/-! ## Loops -/

/-- A loop of conditional steps takes the leading run of units that pass the test. It ends in a
round that takes nothing, if there are more rounds than units. -/
theorem countLoop_nextIf (test : Code → Bool) {rounds : Nat} (count : Nat)
    (isPlaced : placed position) (enough : (ahead position).length < rounds) :
    Leaves placed ahead (countLoop (nextIf peek advance test) rounds count) position
      (count + ((ahead position).takeWhile test).length) ((ahead position).dropWhile test) := by
  induction rounds generalizing position count with
  | zero => exact absurd enough (Nat.not_lt_zero _)
  | succ rounds inductionHypothesis =>
      rw [countLoop]
      by_cases matched : ∃ unit rest, ahead position = unit :: rest ∧ test unit = true
      · obtain ⟨unit, rest, aheadEq, passes⟩ := matched
        rw [aheadEq] at enough ⊢
        refine Leaves.bind (reads.nextIf_of_match test isPlaced aheadEq passes) ?_
        intro moved movedPlaced movedAhead
        have later := inductionHypothesis (count + 1) movedPlaced (by
          rw [movedAhead]
          simp only [List.length_cons] at enough
          omega)
        rw [movedAhead] at later
        simpa [passes, Nat.add_assoc, Nat.add_comm 1] using later
      · have fails : ∀ unit rest, ahead position = unit :: rest → test unit = false := by
          intro unit rest aheadEq
          apply Bool.eq_false_iff.mpr
          intro passes
          exact matched ⟨unit, rest, aheadEq, passes⟩
        refine ⟨position, ?_, isPlaced, Nat.le_refl position, ?_⟩
        · rw [bind_of_ok (reads.nextIf_of_no_match test isPlaced fails)]
          cases aheadEq : ahead position with
          | nil => rfl
          | cons unit rest => simp [fails unit rest aheadEq]
        · cases aheadEq : ahead position with
          | nil => rfl
          | cons unit rest => simp [fails unit rest aheadEq]

/-- A loop of plain steps takes and counts everything. -/
theorem countLoop_advance {rounds : Nat} (count : Nat) (isPlaced : placed position)
    (enough : (ahead position).length < rounds) :
    Leaves placed ahead (countLoop advance rounds count) position
      (count + (ahead position).length) [] := by
  induction rounds generalizing position count with
  | zero => exact absurd enough (Nat.not_lt_zero _)
  | succ rounds inductionHypothesis =>
      rw [countLoop]
      refine Leaves.bind (reads.advance_leaves isPlaced) ?_
      intro moved movedPlaced movedAhead
      cases aheadEq : ahead position with
      | nil =>
          rw [aheadEq] at movedAhead
          exact ⟨moved, rfl, movedPlaced, Nat.le_refl moved, movedAhead⟩
      | cons unit rest =>
          rw [aheadEq] at movedAhead enough
          rw [List.tail_cons] at movedAhead
          have later := inductionHypothesis (count + 1) movedPlaced (by
            rw [movedAhead]
            simp only [List.length_cons] at enough
            omega)
          rw [movedAhead] at later
          simpa [Nat.add_assoc, Nat.add_comm 1] using later

/-- Plain steps yield the units ahead, all of them. -/
theorem yields (isPlaced : placed position) :
    ∃ last, Yields advance position (ahead position) last ∧ placed last ∧ ahead last = [] := by
  induction units : ahead position generalizing position with
  | nil =>
      obtain ⟨moved, answer, movedPlaced, -, movedAhead⟩ := reads.advance_leaves isPlaced
      rw [units] at answer movedAhead
      exact ⟨moved, .done answer, movedPlaced, movedAhead⟩
  | cons unit rest inductionHypothesis =>
      obtain ⟨moved, answer, movedPlaced, -, movedAhead⟩ := reads.advance_leaves isPlaced
      rw [units] at answer movedAhead
      obtain ⟨last, later, lastPlaced, lastAhead⟩ := inductionHypothesis movedPlaced movedAhead
      exact ⟨last, .next answer later, lastPlaced, lastAhead⟩

/-- A loop that must yield in each round takes as many units as it has rounds. -/
theorem takeLoop_of_enough (needed : Int) {rounds : Nat} (taken : Nat)
    (isPlaced : placed position) (enough : rounds ≤ (ahead position).length) :
    Leaves placed ahead (takeLoop advance needed rounds taken) position ()
      ((ahead position).drop rounds) := by
  induction rounds generalizing position taken with
  | zero => exact ⟨position, rfl, isPlaced, Nat.le_refl position, rfl⟩
  | succ rounds inductionHypothesis =>
      rw [takeLoop]
      refine Leaves.bind (reads.advance_leaves isPlaced) ?_
      intro moved movedPlaced movedAhead
      cases aheadEq : ahead position with
      | nil => simp [aheadEq] at enough
      | cons unit rest =>
          rw [aheadEq, List.tail_cons] at movedAhead
          rw [aheadEq, List.length_cons] at enough
          have later := inductionHypothesis (taken + 1) movedPlaced (by
            rw [movedAhead]
            omega)
          rw [movedAhead] at later
          simpa using later

/-- Such a loop is refused when the units end before its rounds, and says how many it took. -/
theorem takeLoop_of_short (needed : Int) {rounds : Nat} (taken : Nat)
    (isPlaced : placed position) (short : (ahead position).length < rounds) :
    ∃ moved, takeLoop advance needed rounds taken position =
        (.error (.shortfall needed (taken + (ahead position).length)), moved) ∧
      placed moved ∧ position ≤ moved ∧ ahead moved = [] := by
  induction rounds generalizing position taken with
  | zero => exact absurd short (Nat.not_lt_zero _)
  | succ rounds inductionHypothesis =>
      obtain ⟨moved, answer, movedPlaced, forward, movedAhead⟩ := reads.advance_leaves isPlaced
      rw [takeLoop, bind_of_ok answer]
      cases aheadEq : ahead position with
      | nil =>
          rw [aheadEq] at movedAhead
          exact ⟨moved, rfl, movedPlaced, forward, movedAhead⟩
      | cons unit rest =>
          rw [aheadEq, List.tail_cons] at movedAhead
          rw [aheadEq, List.length_cons] at short
          obtain ⟨last, refusal, lastPlaced, further, lastAhead⟩ :=
            inductionHypothesis (taken + 1) movedPlaced (by rw [movedAhead]; omega)
          refine ⟨last, ?_, lastPlaced, Nat.le_trans forward further, lastAhead⟩
          rw [movedAhead] at refusal
          simpa [Nat.add_assoc, Nat.add_comm 1] using refusal

/-- A loop that keeps its last result answers the unit that far ahead. -/
theorem lastLoop_answers {rounds : Nat} (last : Option Code) (isPlaced : placed position)
    (positive : 0 < rounds) :
    ∃ moved, lastLoop advance rounds last position =
        (.ok (ahead position)[rounds - 1]?, moved) ∧ placed moved ∧ position ≤ moved := by
  induction rounds generalizing position last with
  | zero => exact absurd positive (Nat.lt_irrefl 0)
  | succ rounds inductionHypothesis =>
      obtain ⟨moved, answer, movedPlaced, forward, movedAhead⟩ := reads.advance_leaves isPlaced
      rw [lastLoop, bind_of_ok answer]
      cases aheadEq : ahead position with
      | nil => exact ⟨moved, by simp, movedPlaced, forward⟩
      | cons unit rest =>
          rw [aheadEq, List.tail_cons] at movedAhead
          cases rounds with
          | zero => exact ⟨moved, by simp [lastLoop], movedPlaced, forward⟩
          | succ rounds =>
              obtain ⟨final, finalAnswer, finalPlaced, further⟩ :=
                inductionHypothesis (some unit) movedPlaced (Nat.succ_pos rounds)
              refine ⟨final, ?_, finalPlaced, Nat.le_trans forward further⟩
              rw [movedAhead] at finalAnswer
              simpa using finalAnswer

end Reads

end Scan

/-! ## The moves of a bare source -/

theorem Source.reads (source : Source) :
    Scan.Reads source.Admits source.unitsFrom source.peek source.advance where
  peek_eq admits := admits.peek_eq
  advance_leaves {position} admits := by
    rcases Nat.lt_or_eq_of_le admits.le_stop with before | atEnd
    · obtain ⟨unit, found, answer⟩ := admits.advance_of_lt before
      rw [found.unitsFrom_eq]
      exact ⟨_, answer, found.admits_next, Nat.le_add_right _ _, rfl⟩
    · subst atEnd
      rw [source.unitsFrom_stop]
      exact ⟨_, source.advance_stop, admits, Nat.le_refl _, source.unitsFrom_stop⟩

end RecordScan
