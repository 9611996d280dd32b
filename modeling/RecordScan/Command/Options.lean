import RecordScan.Command.Help
import RecordScan.Decimal.Numeral
import RecordScan.Text.Quoted

/-!
Contract: reading the arguments of the command line.

Owns: the options of each level, how an argument is told from an option, the
abbreviations, and the misuses with their wording.

Arguments are texts and not strings: bytes that are no UTF-8 come as surrogates.
The arguments are first told apart one by one (`Token`), then read from left to
right. The first level reads up to the name of a command and leaves the rest to
the level of that command.
-/

namespace RecordScan.Options

/-! ## Options -/

/-- What an option does. -/
inductive Effect where
  | help
  | logLevel
  | delimiter
  | maxSegments
  | bytes
  | summary
deriving DecidableEq, Repr

namespace Effect

/-- The spellings of an option. -/
def names : Effect → List String
  | .help => ["-h", "--help"]
  | .logLevel => ["--log-level"]
  | .delimiter => ["--delimiter"]
  | .maxSegments => ["--max-segments"]
  | .bytes => ["--bytes"]
  | .summary => ["--summary"]

/-- Whether an option needs a value. -/
def takesValue : Effect → Bool
  | .logLevel | .delimiter | .maxSegments => true
  | .help | .bytes | .summary => false

end Effect

/-- The options before the name of a command. -/
def topEffects : List Effect := [.help, .logLevel]

/-- The options after the name of a command. -/
def commandEffects (command : Command) : List Effect :=
  [.help, .delimiter, .maxSegments, .bytes] ++ (if command.hasSummary then [.summary] else [])

/-- Every spelling at a level, in order. -/
def spellings (effects : List Effect) : List (Text × Effect) :=
  effects.flatMap fun effect => effect.names.map fun name => (Text.ofString name, effect)

/-! ## Misuse -/

inductive Misuse where
  | ambiguous (raw : Text) (candidates : List Text)
  | valueMissing (effect : Effect)
  | valueUnwanted (effect : Effect) (value : Text)
  | notPositive (value : Int)
  | notInteger (raw : Text)
  | unknownCommand (raw : Text)
  | inputMissing
  | unrecognized (arguments : List Text)
deriving DecidableEq, Repr

def about (effect : Effect) (problem : String) : String :=
  "argument " ++ "/".intercalate effect.names ++ ": " ++ problem

def Misuse.message : Misuse → String
  | .ambiguous raw candidates =>
      "ambiguous option: " ++ raw.display ++ " could match " ++
        ", ".intercalate (candidates.map Text.display)
  | .valueMissing effect => about effect "expected one argument"
  | .valueUnwanted effect value =>
      about effect ("ignored explicit argument " ++ Text.quoted value)
  | .notPositive value => about .maxSegments s!"must be >= 1, got {value}"
  | .notInteger raw => about .maxSegments ("invalid _positive_int value: " ++ Text.quoted raw)
  | .unknownCommand raw =>
      let choices := Command.all.map fun command => Text.quoted (Text.ofString command.name)
      "argument cmd: invalid choice: " ++ Text.quoted raw ++
        " (choose from " ++ ", ".intercalate choices ++ ")"
  | .inputMissing => "the following arguments are required: input"
  | .unrecognized arguments =>
      "unrecognized arguments: " ++ " ".intercalate (arguments.map Text.display)

/-! ## Telling arguments and options apart -/

/-- Two dashes, after which nothing is an option. -/
def dashes : Text := [0x2D, 0x2D]

/-- An argument by its role. An option may have its value attached to it. -/
inductive Token where
  | argument (raw : Text)
  | option (raw : Text) (effect : Effect) (attached : Option Text)
  /-- Looks like an option, and is none at this level. -/
  | unknown (raw : Text)
  /-- The first `--`, after which nothing is an option. -/
  | separator
deriving DecidableEq, Repr

def Token.raw : Token → Text
  | .argument raw | .option raw _ _ | .unknown raw => raw
  | .separator => dashes

def isDecimal (code : Code) : Bool :=
  (Text.decimalValue? code).isSome

/-- Digits after a minus, with a point before the last run of digits or without one; a line
break may end them. -/
def looksNegative (body : Text) : Bool :=
  let body := if body.getLast? = some 0x0A then body.dropLast else body
  let fraction := body.dropWhile isDecimal
  match fraction with
  | [] => !body.isEmpty
  | 0x2E :: digits => !digits.isEmpty && digits.all isDecimal
  | _ => false

/-- An argument split at its first equals sign. -/
def partition (raw : Text) : Text × Option Text :=
  let name := raw.takeWhile (· != 0x3D)
  match raw.drop name.length with
  | _ :: value => (name, some value)
  | [] => (name, none)

/-- The options an argument may abbreviate, with the value attached to it. An argument with
one dash is the short option it starts with, and the rest is attached. -/
def candidates (effects : List Effect) (raw : Text) : List (Text × Effect × Option Text) :=
  match raw with
  | 0x2D :: 0x2D :: _ =>
      let (name, attached) := partition raw
      ((spellings effects).filter fun spelling => name.isPrefixOf spelling.1).map
        fun spelling => (spelling.1, spelling.2, attached)
  | _ =>
      (spellings effects).filterMap fun spelling =>
        if spelling.1 = raw.take 2 then some (spelling.1, spelling.2, some (raw.drop 2))
        else if raw.isPrefixOf spelling.1 then some (spelling.1, spelling.2, none)
        else none

/-- The role of an argument that stands before every `--`. -/
def classify (effects : List Effect) (raw : Text) : Except Misuse Token :=
  match raw with
  | 0x2D :: body =>
      match (spellings effects).lookup raw with
      | some effect => .ok (.option raw effect none)
      | none =>
          if body.isEmpty then .ok (.argument raw)
          else
            let (name, attached) := partition raw
            match attached.isSome, (spellings effects).lookup name with
            | true, some effect => .ok (.option raw effect attached)
            | _, _ =>
                match candidates effects raw with
                | [(_, effect, attached)] => .ok (.option raw effect attached)
                | [] =>
                    if looksNegative body || body.contains 0x20 then .ok (.argument raw)
                    else .ok (.unknown raw)
                | several => .error (.ambiguous raw (several.map (·.1)))
  | _ => .ok (.argument raw)

/-- The roles of all arguments at a level. -/
def tokens (effects : List Effect) : List Text → Except Misuse (List Token)
  | [] => .ok []
  | raw :: rest =>
      if raw = dashes then .ok (.separator :: rest.map Token.argument)
      else do
        let token ← classify effects raw
        return token :: (← tokens effects rest)

/-! ## Reading a level -/

/-- Why reading ends before a command can run. -/
inductive Exit where
  | help
  | misuse (misuse : Misuse)
deriving DecidableEq, Repr

/-- The value of an option. A `--` attached to an option separates nothing and is taken out,
which empties the value. -/
inductive Given (α : Type) where
  | value (given : α)
  | emptied
deriving DecidableEq, Repr

/-- Reads the value of an option as it is typed. -/
def Given.read {α : Type} (reader : Text → Except Misuse α) (raw : Text) :
    Except Exit (Given α) :=
  if raw = dashes then .ok .emptied
  else
    match reader raw with
    | .ok given => .ok (.value given)
    | .error misuse => .error (.misuse misuse)

/-- The options of a level and its argument, as far as they are read. -/
structure Arguments where
  logLevel : Option (Given Text)
  delimiter : Option (Given Text)
  maxSegments : Option (Given Nat)
  bytes : Bool
  summary : Bool
  input : Option Text
  unrecognized : List Text
deriving DecidableEq, Repr

def Arguments.empty : Arguments :=
  ⟨none, none, none, false, false, none, []⟩

/-- A limit on segments, as it is typed. -/
def positive (raw : Text) : Except Misuse Nat :=
  match Numeral.readInteger raw with
  | .error _ => .error (.notInteger raw)
  | .ok value => if value < 1 then .error (.notPositive value) else .ok value.toNat

/-- Applies an option with its value. -/
def Arguments.set (arguments : Arguments) (effect : Effect) (value : Text) :
    Except Exit Arguments := do
  match effect with
  | .logLevel => return { arguments with logLevel := some (← Given.read .ok value) }
  | .delimiter => return { arguments with delimiter := some (← Given.read .ok value) }
  | .maxSegments => return { arguments with maxSegments := some (← Given.read positive value) }
  | .help | .bytes | .summary => return arguments

/-- Applies an option without a value. -/
def Arguments.turnOn (arguments : Arguments) (effect : Effect) : Except Exit Arguments :=
  match effect with
  | .help => .error .help
  | .bytes => .ok { arguments with bytes := true }
  | .summary => .ok { arguments with summary := true }
  | .logLevel | .delimiter | .maxSegments => .ok arguments

/-- What becomes of text attached to the short help option. It has to be the letters of
further short options, and help is the only one. -/
def shortHelp (attached : Text) : Exit :=
  let other := attached.dropWhile (· == 0x68)
  if other.isEmpty && !attached.isEmpty then .help
  else .misuse (.valueUnwanted .help other)

/-- Applies an option that has a value attached. -/
def Arguments.setAttached (arguments : Arguments) (raw : Text) (effect : Effect)
    (attached : Text) : Except Exit Arguments :=
  if effect.takesValue then arguments.set effect attached
  else if effect = .help && !dashes.isPrefixOf raw then .error (shortHelp attached)
  else .error (.misuse (.valueUnwanted effect attached))

/-- Adds an argument that nothing asks for. -/
def Arguments.reject (arguments : Arguments) (raw : Text) : Arguments :=
  { arguments with unrecognized := arguments.unrecognized ++ [raw] }

/-- Reads options up to the first argument, which names a command; answers what follows it. -/
def readTop (arguments : Arguments) : List Token →
    Except Exit (Arguments × Option (Text × List Text))
  | [] => .ok (arguments, none)
  | .argument raw :: rest => .ok (arguments, some (raw, rest.map Token.raw))
  | .separator :: rest =>
      if rest.isEmpty then .ok (arguments.reject dashes, none)
      else .ok (arguments, some (dashes, rest.map Token.raw))
  | .unknown raw :: rest => readTop (arguments.reject raw) rest
  | .option raw effect (some attached) :: rest => do
      readTop (← arguments.setAttached raw effect attached) rest
  | .option _ effect none :: rest =>
      if effect.takesValue then
        match rest with
        | .argument value :: rest => do readTop (← arguments.set effect value) rest
        | _ => .error (.misuse (.valueMissing effect))
      else do readTop (← arguments.turnOn effect) rest

/-- Reads the options and the one argument of a command. The argument takes a `--` before or
after it along. -/
def readCommand (arguments : Arguments) : List Token → Except Exit Arguments
  | [] => .ok arguments
  | .argument raw :: rest =>
      match arguments.input with
      | some _ => readCommand (arguments.reject raw) rest
      | none =>
          match rest with
          | .separator :: rest => readCommand { arguments with input := some raw } rest
          | rest => readCommand { arguments with input := some raw } rest
  | .separator :: rest =>
      match arguments.input with
      | some _ => readCommand (arguments.reject dashes) rest
      | none =>
          match rest with
          | .argument raw :: rest => readCommand { arguments with input := some raw } rest
          | rest => readCommand (arguments.reject dashes) rest
  | .unknown raw :: rest => readCommand (arguments.reject raw) rest
  | .option raw effect (some attached) :: rest => do
      readCommand (← arguments.setAttached raw effect attached) rest
  | .option _ effect none :: rest =>
      if effect.takesValue then
        match rest with
        | .argument value :: rest => do readCommand (← arguments.set effect value) rest
        | _ => .error (.misuse (.valueMissing effect))
      else do readCommand (← arguments.turnOn effect) rest

/-! ## Invocations -/

/-- A command with all it needs. -/
structure Request where
  command : Command
  input : Text
  delimiter : Option (Given Text)
  maxSegments : Option (Given Nat)
  bytes : Bool
  summary : Bool
deriving DecidableEq, Repr

/-- What the arguments ask for; no request if they name no command. -/
structure Invocation where
  logLevel : Option (Given Text)
  request : Option Request
deriving DecidableEq, Repr

/-- An exit, and the level that makes it: a command's, or the first. -/
structure LevelExit where
  level : Option Command
  exit : Exit
deriving DecidableEq, Repr

def atLevel {α : Type} (level : Option Command) (result : Except Exit α) : Except LevelExit α :=
  result.mapError fun exit => ⟨level, exit⟩

def tokensAt (level : Option Command) (effects : List Effect) (arguments : List Text) :
    Except LevelExit (List Token) :=
  (tokens effects arguments).mapError fun misuse => ⟨level, .misuse misuse⟩

/-- Refuses arguments that no level asks for. -/
def checkRecognized (unrecognized : List Text) : Except LevelExit Unit :=
  if unrecognized.isEmpty then .ok () else .error ⟨none, .misuse (.unrecognized unrecognized)⟩

/-- Reads the arguments of a command. Answers the arguments nothing asks for as well. -/
def readRequest (command : Command) (arguments : List Text) :
    Except LevelExit (Request × List Text) := do
  let found ← tokensAt (some command) (commandEffects command) arguments
  let read ← atLevel (some command) (readCommand .empty found)
  match read.input with
  | none => throw ⟨some command, .misuse .inputMissing⟩
  | some input =>
      return (⟨command, input, read.delimiter, read.maxSegments, read.bytes, read.summary⟩,
        read.unrecognized)

/-- Reads all arguments. -/
def read (arguments : List Text) : Except LevelExit Invocation := do
  let found ← tokensAt none topEffects arguments
  let (top, command?) ← atLevel none (readTop .empty found)
  match command? with
  | none =>
      checkRecognized top.unrecognized
      return ⟨top.logLevel, none⟩
  | some (name, rest) =>
      match Command.ofName? name with
      | none => throw ⟨none, .misuse (.unknownCommand name)⟩
      | some command =>
          let (request, unrecognized) ← readRequest command rest
          checkRecognized (top.unrecognized ++ unrecognized)
          return ⟨top.logLevel, some request⟩

end RecordScan.Options
