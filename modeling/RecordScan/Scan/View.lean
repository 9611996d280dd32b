import RecordScan.Scan.Source

/-!
Contract: layered views of a source.

Owns: the layers and what each of them does to the primitive moves: looking at
the next unit, taking it, returning to a position, narrowing the bounds, and the
two moves that a source can make in one leap.

A view has no position of its own: every layer moves the position of the source
beneath it.
-/

namespace RecordScan

/-- A layer over a source or over other layers. -/
inductive Layer where
  /-- Remembers where it was laid, and lets nobody return to before that place. -/
  | recording (start : Nat)
  /-- Skips every occurrence of one unit. -/
  | ignoring (unit : Code)
  /-- Is always at its end. -/
  | stopped
deriving DecidableEq, Repr

/-- A source under a stack of layers, the outermost first. -/
structure View where
  source : Source
  layers : List Layer
deriving DecidableEq, Repr

namespace View

/-! ## Moves through layers -/

/-- Returns to a position through layers. -/
def restoreThrough (source : Source) : List Layer → Int → Scan Unit
  | [], target => source.restore target
  | .recording start :: inner, target =>
      if target < start then Scan.refuse (.positionBeforeRecording target start)
      else restoreThrough source inner target
  | .ignoring _ :: inner, target => restoreThrough source inner target
  | .stopped :: inner, target => restoreThrough source inner target

/-- Skips a run of `unit` by the moves of the inner layers, then takes what follows. -/
def skipAndAdvance (source : Source) (unit : Code) (peek advance : Scan (Option Code)) :
    Scan (Option Code) := do
  let _ ← Scan.countLoop (Scan.nextIf peek advance (· == unit)) (← source.rounds) 0
  advance

mutual

/-- The next unit that the layers show. An ignoring layer finds it by moving there and back. -/
def peekThrough (source : Source) : List Layer → Scan (Option Code)
  | [] => source.peek
  | .recording _ :: inner => peekThrough source inner
  | .ignoring unit :: inner => do
      let mark ← Scan.position
      let found ← skipAndAdvance source unit (peekThrough source inner)
        (advanceThrough source inner)
      restoreThrough source inner mark
      return found
  | .stopped :: _ => return none

/-- The next unit that the layers show, and past it. -/
def advanceThrough (source : Source) : List Layer → Scan (Option Code)
  | [] => source.advance
  | .recording _ :: inner => advanceThrough source inner
  | .ignoring unit :: inner =>
      skipAndAdvance source unit (peekThrough source inner) (advanceThrough source inner)
  | .stopped :: _ => return none

end

/-! ## Primitive moves of a view -/

def mode (view : View) : Mode :=
  view.source.mode

def peek (view : View) : Scan (Option Code) :=
  peekThrough view.source view.layers

def advance (view : View) : Scan (Option Code) :=
  advanceThrough view.source view.layers

def restore (view : View) (target : Int) : Scan Unit :=
  restoreThrough view.source view.layers target

/-- The class of units a pattern matches in this view. -/
def test (view : View) (pattern : Pattern) : Scan (Code → Bool) :=
  Scan.ofExcept (pattern.test? view.mode)

/-- Whether a layer goes along into narrower bounds. -/
def isKept : Layer → Bool
  | .ignoring _ => true
  | .recording _ | .stopped => false

/-- A view of narrower bounds. Only the ignoring layers go along. -/
def bounded (view : View) (first last : Int) : Except Fault View :=
  (view.source.bounded first last).map fun source => ⟨source, view.layers.filter isKept⟩

/-! ## Derived views -/

/-- Lays a recording that starts at `start`. -/
def recordFrom (view : View) (start : Nat) : View :=
  { view with layers := .recording start :: view.layers }

/-- Lays a recording that starts at the current position. -/
def record (view : View) : Scan View := do
  return view.recordFrom (← Scan.position)

/-- Ignores the unit of a literal. -/
def ignore (view : View) (literal : Literal) : Except Fault View :=
  (view.mode.unit? literal).map fun unit => { view with layers := .ignoring unit :: view.layers }

def stop (view : View) : View :=
  { view with layers := .stopped :: view.layers }

/-! ## Taking runs of units -/

/-- Takes the next unit if it passes the test. -/
def nextWith (view : View) (test : Code → Bool) : Scan (Option Code) :=
  Scan.nextIf view.peek view.advance test

/-- Takes units as long as they pass the test, and counts them. -/
def countWith (view : View) (test : Code → Bool) : Scan Nat := do
  Scan.countLoop (view.nextWith test) (← view.source.rounds) 0

/-- Takes all units one by one, and counts them. -/
def countAll (view : View) : Scan Nat := do
  Scan.countLoop view.advance (← view.source.rounds) 0

/-- Takes units one by one up to the first that matches. -/
def walkUntil (view : View) (pattern : Pattern) : Scan Unit := do
  let test ← view.test pattern
  let _ ← view.countWith fun unit => !test unit

/-- Leaps to the first match of a literal, by the bytes it has in the buffer; walks to the
first unit of a class. -/
def leapUntil (source : Source) : Pattern → Scan Unit
  | .literal literal => do
      let unit ← Scan.ofExcept (source.mode.unit? literal)
      let needle ← Scan.ofExcept (source.mode.encodeUnit unit)
      source.seek needle
  | .satisfying test => walkUntil ⟨source, []⟩ (.satisfying test)

/-- Moves to the first match, or to the end. Recordings over a bare source keep its leap. -/
def consumeUntilThrough (source : Source) (pattern : Pattern) : List Layer → Scan Unit
  | [] => leapUntil source pattern
  | .recording _ :: inner => consumeUntilThrough source pattern inner
  | .ignoring unit :: inner => walkUntil ⟨source, .ignoring unit :: inner⟩ pattern
  | .stopped :: inner => walkUntil ⟨source, .stopped :: inner⟩ pattern

/-- Moves to the end. Recordings over a bare source keep its leap. -/
def consumeThrough (source : Source) : List Layer → Scan Unit
  | [] => Scan.moveTo source.stop
  | .recording _ :: inner => consumeThrough source inner
  | .ignoring unit :: inner => do
      let _ ← countAll ⟨source, .ignoring unit :: inner⟩
  | .stopped :: inner => do
      let _ ← countAll ⟨source, .stopped :: inner⟩

def consumeUntil (view : View) (pattern : Pattern) : Scan Unit :=
  consumeUntilThrough view.source pattern view.layers

def consume (view : View) : Scan Unit :=
  consumeThrough view.source view.layers

end View

end RecordScan
