import RecordScan.Scan.Unit

/-!
Contract: scans, the steps that move a position.

Owns: the type of scans and its sequencing, and the two loops every consumer is
made of.

A scan that is refused keeps whatever it had moved before: the position is part
of the result either way. Loops take their number of rounds as an argument;
callers pass more rounds than units are left.
-/

namespace RecordScan

/-- A step from a position: an answer or a refusal, and the position afterwards. -/
def Scan (α : Type) : Type := Nat → Except Fault α × Nat

instance : Monad Scan where
  pure value := fun position => (.ok value, position)
  bind scan next := fun position =>
    match scan position with
    | (.ok value, moved) => next value moved
    | (.error fault, moved) => (.error fault, moved)

namespace Scan

/-- The current position. -/
def position : Scan Nat :=
  fun position => (.ok position, position)

def moveTo (target : Nat) : Scan Unit :=
  fun _ => (.ok (), target)

def refuse {α : Type} (fault : Fault) : Scan α :=
  fun position => (.error fault, position)

/-- An answer that does not depend on the position. -/
def ofExcept {α : Type} (result : Except Fault α) : Scan α :=
  fun position => (result, position)

/-- Runs a scan, then returns to where it began. If the way back is refused, that refusal
replaces the result. -/
def lookAhead {α : Type} (restore : Int → Scan Unit) (scan : Scan α) : Scan α :=
  fun position =>
    let (result, moved) := scan position
    match restore position moved with
    | (.ok _, back) => (result, back)
    | (.error fault, back) => (.error fault, back)

/-- Takes the next unit if there is one and it passes the test. -/
def nextIf (peek advance : Scan (Option Code)) (test : Code → Bool) : Scan (Option Code) := do
  match ← peek with
  | none => return none
  | some unit => if test unit then advance else return none

/-- Repeats a step as long as it yields a unit; adds the number of units to `count`. -/
def countLoop (step : Scan (Option Code)) : (rounds : Nat) → (count : Nat) → Scan Nat
  | 0, count => return count
  | rounds + 1, count => do
      match ← step with
      | none => return count
      | some _ => countLoop step rounds (count + 1)

/-- Repeats a step that must yield a unit in each round; `taken` units came before. -/
def takeLoop (step : Scan (Option Code)) (needed : Int) :
    (rounds : Nat) → (taken : Nat) → Scan Unit
  | 0, _ => return ()
  | rounds + 1, taken => do
      match ← step with
      | none => refuse (.shortfall needed taken)
      | some _ => takeLoop step needed rounds (taken + 1)

/-- Repeats a step up to the last round or to the end, and answers its last result. -/
def lastLoop (step : Scan (Option Code)) : (rounds : Nat) → (last : Option Code) →
    Scan (Option Code)
  | 0, last => return last
  | rounds + 1, _ => do
      match ← step with
      | none => return none
      | some unit => lastLoop step rounds (some unit)

/-- Repeats a step as long as it yields a unit, and answers the units in order. -/
def unitsLoop (step : Scan (Option Code)) : (rounds : Nat) → (units : Array Code) →
    Scan (List Code)
  | 0, units => return units.toList
  | rounds + 1, units => do
      match ← step with
      | none => return units.toList
      | some unit => unitsLoop step rounds (units.push unit)

end Scan

end RecordScan
