import RecordScan.Grammar.KeyValue
import RecordScan.Log

/-!
Contract: sessions, in which many handles share cursors.

Owns: the state of a session and the passage from a handle to the view it stands
for.

State is what a later step can see: the position of each cursor, the start of
each recorder, whether each splitter is exhausted, and the marks taken. Handles
are numbered in the order in which they are made; handle 0 is the first cursor.
-/

namespace RecordScan

/-- A source and the position that all handles over it share. -/
structure Cursor where
  source : Source
  position : Nat
deriving DecidableEq, Repr

/-- A layer of a handle. A recorder is named by its number, since its start may move. -/
inductive LayerRef where
  | recorder (index : Nat)
  | ignoring (unit : Code)
  | stopped
deriving DecidableEq, Repr

/-- A stack of layers over a cursor, the outermost first. -/
structure Stack where
  cursor : Nat
  layers : List LayerRef
deriving DecidableEq, Repr

inductive Handle where
  | cursor (stack : Stack)
  | splitter (parent : Stack) (delimiter : Pattern) (exhausted : Bool)
  | run (stack : Stack) (pattern : Pattern)

/-- The stack a handle moves. -/
def Handle.stack : Handle → Stack
  | .cursor stack => stack
  | .splitter parent _ _ => parent
  | .run stack _ => stack

structure Session where
  cursors : Array Cursor
  /-- Where each recorder starts. -/
  recorders : Array Nat
  handles : Array Handle
  /-- The positions of the marks. -/
  marks : Array Nat

namespace Session

/-- A session whose first handle is a cursor at the start of a source. -/
def start (source : Source) : Session :=
  ⟨#[⟨source, source.start⟩], #[], #[.cursor ⟨0, []⟩], #[]⟩

/-! ## Looking at the state -/

def layer (session : Session) : LayerRef → Layer
  | .recorder index => .recording (session.recorders.getD index 0)
  | .ignoring unit => .ignoring unit
  | .stopped => .stopped

/-- The source beneath a stack. Every stack of a session names a cursor that exists. -/
def source (session : Session) (stack : Stack) : Source :=
  match session.cursors[stack.cursor]? with
  | some cursor => cursor.source
  | none => ⟨.bytes, #[], 0, 0⟩

/-- The view a stack stands for. -/
def view (session : Session) (stack : Stack) : View :=
  ⟨session.source stack, stack.layers.map session.layer⟩

/-- The position of the cursor beneath a stack. -/
def position (session : Session) (stack : Stack) : Nat :=
  match session.cursors[stack.cursor]? with
  | some cursor => cursor.position
  | none => 0

/-! ## Changing the state -/

/-- Moves the cursor beneath a stack. -/
def moveTo (session : Session) (stack : Stack) (position : Nat) : Session :=
  { session with
    cursors := session.cursors.modify stack.cursor fun cursor =>
      { cursor with position := position } }

/-- Adds a handle, and answers its number. -/
def addHandle (session : Session) (handle : Handle) : Session × Nat :=
  ({ session with handles := session.handles.push handle }, session.handles.size)

/-- Adds a handle for a view of narrower bounds, whose cursor is new and at its start. The
layers of such a view are ignoring ones. -/
def addSegment (session : Session) (segment : View) : Session × Nat :=
  let layers := segment.layers.filterMap fun
    | .ignoring unit => some (LayerRef.ignoring unit)
    | .recording _ | .stopped => none
  let stack : Stack := ⟨session.cursors.size, layers⟩
  let cursor : Cursor := ⟨segment.source, segment.source.start⟩
  { session with cursors := session.cursors.push cursor }.addHandle (.cursor stack)

/-- Adds a handle that records from the current position on. -/
def addRecorder (session : Session) (stack : Stack) : Session × Nat :=
  let layers := .recorder session.recorders.size :: stack.layers
  { session with recorders := session.recorders.push (session.position stack) }.addHandle
    (.cursor ⟨stack.cursor, layers⟩)

/-- Moves the start of a recorder to the current position. -/
def rebase (session : Session) (stack : Stack) (recorder : Nat) : Session :=
  { session with recorders := session.recorders.modify recorder fun _ => session.position stack }

/-- Notes whether the splitter at a handle is exhausted. -/
def setExhausted (session : Session) (index : Nat) (exhausted : Bool) : Session :=
  { session with
    handles := session.handles.modify index fun
      | .splitter parent delimiter _ => .splitter parent delimiter exhausted
      | handle => handle }

end Session

end RecordScan
