import RecordScan.Scan.Recording

/-!
Contract: splitting a view into segments.

Owns: handing out the next segment, and applying a function to the segments that
are left.

A segment is a view of its own from the position to the next delimiter; the
parent moves past the delimiter as soon as the segment is handed out. When no
delimiter is left the remainder, possibly empty, is the last segment.
-/

namespace RecordScan

/-- Where a splitter stands: the position of its parent, and whether the last segment has
been handed out. -/
structure Progress where
  position : Nat
  exhausted : Bool
deriving DecidableEq, Repr

namespace View

/-- Hands out the next segment. -/
def nextSegment (view : View) (delimiter : Pattern) (progress : Progress) :
    Except Fault View × Progress :=
  if progress.exhausted then (.error .exhausted, progress)
  else
    match view.consumeUntil delimiter progress.position with
    | (.error fault, moved) => (.error fault, ⟨moved, false⟩)
    | (.ok _, last) =>
        match view.advance last with
        | (.error fault, moved) => (.error fault, ⟨moved, false⟩)
        | (.ok unit, moved) => (view.bounded progress.position last, ⟨moved, unit.isNone⟩)

/-- What became of a function applied to segment after segment. -/
structure Sweep (α : Type) where
  /-- The results, in the order of the segments. -/
  results : List α
  /-- The refusal that ended the sweep early. -/
  fault : Option Fault
  progress : Progress

/-- Applies a function to the segments that are left, each from its own start, until one
refuses. -/
def sweepLoop {α : Type} (view : View) (delimiter : Pattern) (visit : View → Scan α) :
    (rounds : Nat) → (results : Array α) → Progress → Sweep α
  | 0, results, progress => ⟨results.toList, none, progress⟩
  | rounds + 1, results, progress =>
      match view.nextSegment delimiter progress with
      | (.error .exhausted, progress) => ⟨results.toList, none, progress⟩
      | (.error fault, progress) => ⟨results.toList, some fault, progress⟩
      | (.ok segment, progress) =>
          match (visit segment segment.source.start).1 with
          | .error fault => ⟨results.toList, some fault, progress⟩
          | .ok result => sweepLoop view delimiter visit rounds (results.push result) progress

/-- Applies a function to the segments that are left. There is at most one segment more
than bytes, and one more round finds the end. -/
def sweep {α : Type} (view : View) (delimiter : Pattern) (visit : View → Scan α)
    (progress : Progress) : Sweep α :=
  sweepLoop view delimiter visit (view.source.stop - progress.position + 2) #[] progress

end View

end RecordScan
