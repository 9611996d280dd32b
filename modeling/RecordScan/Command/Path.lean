import RecordScan.Fault

/-!
Contract: paths of input files.

Owns: the plain form of a path, in which files are looked up and messages name
them; which paths can name a file at all; and what may stand at a path.
-/

namespace RecordScan

/-- What stands at a path. -/
inductive FileContent where
  | missing
  | directory
  /-- The path leads on from a file. -/
  | notDirectory
  | nameTooLong
  | file (bytes : List UInt8)
deriving DecidableEq, Repr

namespace Path

def slash : Code := 0x2F

def dot : Code := 0x2E

/-- The slashes a path starts with, in its plain form: two stay two, more count as one. -/
def root (slashes : Nat) : Text :=
  if slashes = 0 then [] else if slashes = 2 then [slash, slash] else [slash]

/-- Whether a component names a step of the path. -/
def isStep (component : Text) : Bool :=
  !component.isEmpty && component != [dot]

/-- The components between slashes. -/
def components : Text → List Text
  | [] => [[]]
  | code :: rest =>
      let found := components rest
      if code = slash then [] :: found
      else (code :: found.headD []) :: found.tail

/-- A path without empty components and components that stay where they are. A path without
any step is the current directory. -/
def plain (path : Text) : Text :=
  let slashes := (path.takeWhile (· == slash)).length
  let steps := (components path).filter isStep
  let written := root slashes ++ [slash].intercalate steps
  if written.isEmpty then [dot] else written

/-- Refuses a path that can name no file. A name is made of bytes: a surrogate has to stand for
one, and none is null. -/
def check (path : Text) : Except Fault Unit :=
  match path.surrogateDefect? fun code => code.isSurrogate && !code.standsForByte with
  | some defect => .error (.escape defect)
  | none => if path.contains 0 then .error .nulInPath else .ok ()

end Path

end RecordScan
