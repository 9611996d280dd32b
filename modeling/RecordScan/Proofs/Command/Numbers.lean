import Mathlib.Data.List.Forall2
import RecordScan.Proofs.Command.Lines
import RecordScan.Proofs.Grammar.Number

/-!
Contract: what the numbers command makes of a file.

Owns: the readings of lines, in which a line that holds no number takes the place of
one (`Command.readings_eq`); and what a run prints, in full and as a summary.

Empty lines count towards the limit, and are not read.
-/

namespace RecordScan

open Number (Spelling)

/-! ## Readings -/

namespace Command

theorem numberOf_eq {source : Source} (wellFormed : source.WellFormed) :
    onSegment numberOf ⟨source, []⟩ =
      if View.line ⟨source, []⟩ = [] then .ok none
      else (View.wholeNumber ⟨source, []⟩ source.start).1.map some := by
  have begins : onSegment numberOf ⟨source, []⟩ = _ :=
    congrArg Prod.fst (Scan.bind_of_ok (View.atEnd_line wellFormed))
  rw [begins]
  cases View.line ⟨source, []⟩ with
  | nil => rfl
  | cons unit rest =>
      rw [if_neg (List.cons_ne_nil unit rest)]
      cases answer : View.wholeNumber ⟨source, []⟩ source.start with
      | mk result moved =>
          cases result with
          | ok number => exact congrArg Prod.fst (Scan.bind_of_ok answer)
          | error fault => exact congrArg Prod.fst (Scan.bind_of_error answer)

/-- A line that is not empty is read as a number, or its parse fails. -/
theorem numberOf_reads {source : Source} (wellFormed : source.WellFormed)
    (notEmpty : View.line ⟨source, []⟩ ≠ [])
    (short : ∀ spelling : Spelling, spelling.Longest (View.line ⟨source, []⟩) →
      ¬ spelling.TooLong) :
    ∃ reading, Spelling.Reads (View.line ⟨source, []⟩) reading ∧
      match reading with
      | some number => onSegment numberOf ⟨source, []⟩ = .ok (some number)
      | none => ∃ fault, fault.isParseFailure = true ∧
          onSegment numberOf ⟨source, []⟩ = .error fault := by
  rw [numberOf_eq wellFormed, if_neg notEmpty]
  rcases View.wholeNumber_reads wellFormed.admits_start short with
    ⟨spelling, isLine, answer⟩ | ⟨unspelled, fault, isFailure, refusal⟩
  · refine ⟨some spelling.number, ?_, ?_⟩
    · rw [View.line, ← isLine]
      exact spelling.reads_text
    · rw [answer]
      rfl
  · refine ⟨none, Spelling.reads_none unspelled, fault, isFailure, ?_⟩
    rw [refusal]
    rfl

/-- **Each line has a reading of its own.** The readings of segments are those of their lines that
are not empty, in order, whatever the other lines hold. -/
theorem readings_eq (index : Nat) {segments : List View}
    (areSources : ∀ segment ∈ segments, ∃ source : Source,
      source.WellFormed ∧ segment = ⟨source, []⟩)
    (short : ∀ segment ∈ segments, ∀ spelling : Spelling, spelling.Longest segment.line →
      ¬ spelling.TooLong) :
    ∃ numbers, (readings index segments).numbers = .ok numbers ∧
      List.Forall₂ Spelling.Reads ((segments.map View.line).filter (!·.isEmpty)) numbers := by
  induction segments generalizing index with
  | nil => exact ⟨[], rfl, .nil⟩
  | cons segment segments inductionHypothesis =>
      -- The index only names a segment in the events, so the later readings do not depend on it.
      obtain ⟨numbers, later, areRead⟩ := inductionHypothesis (index + 1)
        (fun other member => areSources other (List.mem_cons_of_mem segment member))
        (fun other member => short other (List.mem_cons_of_mem segment member))
      obtain ⟨source, wellFormed, rfl⟩ := areSources segment (List.mem_cons_self ..)
      rw [readings, List.map_cons]
      by_cases isEmpty : View.line ⟨source, []⟩ = []
      · rw [numberOf_eq wellFormed, if_pos isEmpty, isEmpty]
        exact ⟨numbers, later, areRead⟩
      · obtain ⟨reading, isRead, answered⟩ :=
          numberOf_reads wellFormed isEmpty (short _ (List.mem_cons_self ..))
        rw [List.filter_cons_of_pos (by simpa using isEmpty)]
        refine ⟨reading :: numbers, ?_, .cons isRead areRead⟩
        cases reading with
        | some number =>
            rw [answered]
            simp only [Readings.cons, later]
            rfl
        | none =>
            obtain ⟨fault, isFailure, refused⟩ := answered
            rw [refused]
            simp only [isFailure, Readings.cons, later]
            rfl

end Command

/-! ## Runs -/

/-- The same job for the numbers command, with or without a summary. -/
def Job.numbers (job : Job) (summary : Bool) : Job :=
  { job with request := { job.request with command := .numbers, summary := summary } }

/-- What is printed of readings, in full or as a summary. -/
theorem Job.report_numbers {names : CharacterNames} {job : Job} {bytes : List UInt8}
    {segments : List View} {numbers : List (Option Number)} (summary : Bool)
    (areSegments : job.segments names (.file bytes) = .ok segments)
    (areRead : (Command.readings 0 segments).numbers = .ok numbers) :
    ((job.numbers summary).report names (.file bytes)).ending = .finished 0 ∧
      ((job.numbers summary).report names (.file bytes)).output =
        if summary then Command.numberSummary numbers else Command.numberDocument numbers := by
  have same : (job.numbers summary).segments names (.file bytes) =
      job.segments names (.file bytes) := rfl
  have printed : (job.numbers summary).print names (.file bytes) =
      ((Command.readings 0 segments).events,
        .ok (if summary then Command.numberSummary numbers
          else Command.numberDocument numbers)) := by
    rw [Job.print, same, areSegments]
    simp only [Job.numbers, Command.print, areRead, Except.map]
    cases summary with
    | true => rfl
    | false => rfl
  constructor
  · rw [Job.report, printed]
  · rw [Job.report, printed]

end RecordScan
