import RecordScan.Scan.View

/-!
Contract: the consumers and look-aheads of a view.

Owns: everything that is expressed through the primitive moves: conditional
steps, look-ahead, runs, counts, and expectations.
-/

namespace RecordScan.View

/-! ## Looking -/

/-- Bytes left before the end of the bounds. A view whose outermost layer is stopped has none. -/
def remaining (view : View) : Scan Nat := do
  match view.layers with
  | .stopped :: _ => return 0
  | _ => return view.source.stop - (← Scan.position)

def atEnd (view : View) : Scan Bool := do
  return (← view.peek).isNone

/-- The unit `distance` ahead, the next one being the first, without moving. -/
def peekAt (view : View) (distance : Int) : Scan (Option Code) :=
  if distance < 1 then Scan.refuse .lookDistance
  else Scan.lookAhead view.restore (Scan.lastLoop view.advance distance.toNat none)

/-! ## Steps -/

/-- Takes the next unit only if it matches. -/
def nextIf (view : View) (pattern : Pattern) : Scan (Option Code) := do
  view.nextWith (← view.test pattern)

/-- Whether the next unit matched and was taken; nothing at the end. -/
def advanceIf (view : View) (pattern : Pattern) : Scan (Option Bool) := do
  match ← view.peek with
  | none => return none
  | some _ => return some (← view.nextIf pattern).isSome

/-! ## Runs -/

/-- Takes units as long as they match, and counts them. -/
def countRun (view : View) (pattern : Pattern) : Scan Nat := do
  view.countWith (← view.test pattern)

/-- A run of at least `needed` units. A shorter run is refused and stays consumed. -/
def countAtLeast (view : View) (pattern : Pattern) (needed : Int) : Scan Nat := do
  let count ← view.countRun pattern
  if count < needed then Scan.refuse (.shortfall needed count) else return count

def consumeWhile (view : View) (pattern : Pattern) : Scan Unit := do
  let _ ← view.countRun pattern

/-- Takes a run of a class of units; a literal is no class. -/
def consumeClass (view : View) : Pattern → Scan Unit
  | .literal literal => Scan.refuse (.predicateWanted literal)
  | .satisfying test => view.consumeWhile (.satisfying test)

/-- Takes a run of the unit a literal stands for. -/
def consumeUnitRun (view : View) (literal : Literal) : Scan Unit :=
  view.consumeWhile (.literal literal)

/-! ## Counted moves -/

/-- Takes `needed` units. At the end before that it is refused and stays there. -/
def consumeLength (view : View) (needed : Int) : Scan Unit :=
  Scan.takeLoop view.advance needed needed.toNat 0

/-- Takes at least `needed` units, and all that follow. -/
def consumeAtLeast (view : View) (needed : Int) : Scan Unit := do
  view.consumeLength needed
  view.consume

/-- The bytes of the next `needed` units without moving, if there are as many. -/
def peekLength (view : View) (needed : Int) : Scan (Option (List UInt8)) :=
  Scan.lookAhead view.restore fun position =>
    match view.consumeLength needed position with
    | (.ok _, moved) => (.ok (some (Utf8.slice view.source.bytes position moved)), moved)
    | (.error (.shortfall _ _), moved) => (.ok none, moved)
    | (.error fault, moved) => (.error fault, moved)

/-- All units up to the end, which is then the position. -/
def takeUnits (view : View) : Scan (List Code) := do
  Scan.unitsLoop view.advance (← view.source.rounds) #[]

/-! ## Expectations -/

/-- Takes the next unit, which must match. -/
def expect (view : View) (pattern : Pattern) : Scan Unit := do
  let test ← view.test pattern
  let offset ← Scan.position
  match ← view.peek with
  | none => Scan.refuse (.unexpected view.mode none offset)
  | some unit =>
      if test unit then
        let _ ← view.advance
      else Scan.refuse (.unexpected view.mode (some unit) offset)

/-- The view must be at its end. -/
def expectEnd (view : View) : Scan Unit := do
  match ← view.peek with
  | none => return ()
  | some unit => Scan.refuse (.unexpected view.mode (some unit) (← Scan.position))

end RecordScan.View
