import RecordScan.Literal
import RecordScan.Model.Complaint
import RecordScan.Utf8.Basic

/-!
Contract: why an operation is refused.

Owns: the causes, one constructor each, their wording in `Fault.message`, and
which of them are failures of a parse (`Fault.isParseFailure`), the ones that
the command line reports instead of passing on.
-/

namespace RecordScan

/-- Why a delimiter's escapes have no reading. -/
inductive EscapeReason where
  | endOfText
  | hexByte
  | hexShort
  | hexLong
  | aboveGreatest
  | malformedName
  | unknownName
deriving DecidableEq, Repr

def EscapeReason.message : EscapeReason → String
  | .endOfText => "\\ at end of string"
  | .hexByte => "truncated \\xXX escape"
  | .hexShort => "truncated \\uXXXX escape"
  | .hexLong => "truncated \\UXXXXXXXX escape"
  | .aboveGreatest => "illegal Unicode character"
  | .malformedName => "malformed \\N character escape"
  | .unknownName => "unknown Unicode character name"

/-- What in a text stands for nothing. -/
inductive EscapeDefect where
  /-- An escape without a reading: the bytes from the backslash through the last one taken. -/
  | unread (first last : Nat) (reason : EscapeReason)
  /-- Lone surrogates in a row, the first of them at a position. They have no bytes. -/
  | surrogates (position : Nat) (row : Text)
deriving DecidableEq, Repr

def EscapeDefect.message : EscapeDefect → String
  | .unread first last reason =>
      let place :=
        if first = last then s!"byte 0x5c in position {first}"
        else s!"bytes in position {first}-{last}"
      "'unicodeescape' codec can't decode " ++ place ++ ": " ++ reason.message
  | .surrogates position row =>
      let place :=
        match row with
        | [code] => "character " ++ Text.quoted [code] ++ s!" in position {position}"
        | _ =>
            let last := position + row.length - 1
            s!"characters in position {position}-{last}"
      "'utf-8' codec can't encode " ++ place ++ ": surrogates not allowed"

/-- The first surrogate of a text that is refused, with the surrogates right behind it, which are
refused along with it. -/
def Text.surrogateDefect? (isRefused : Code → Bool) (text : Text) : Option EscapeDefect :=
  (text.findIdx? isRefused).map fun position =>
    .surrogates position ((text.drop position).takeWhile Code.isSurrogate)

/-- The cause of a refusal. -/
inductive Fault where
  /-- A byte is wanted and the number is none. -/
  | byteRange (value : Int)
  | notOneByte (literal : Literal)
  | notOneCharacter (literal : Literal)
  /-- No code point has this number. -/
  | codeRange
  /-- The number is too large to be looked at as a code point. -/
  | codeOverflow
  /-- A lone surrogate has no UTF-8 form to search for. -/
  | unencodable (code : Code)
  /-- A position outside the bounds of the cursor. -/
  | positionOutside (position : Int) (start stop : Nat)
  /-- A position before the start of a recording. -/
  | positionBeforeRecording (position : Int) (start : Nat)
  | boundsOutside (first last : Int) (start stop : Nat)
  /-- Ill-formed UTF-8, or an offset inside a sequence. -/
  | utf8 (offset : Int) (reason : Utf8.Reason)
  /-- Looking ahead goes at least one unit far. -/
  | lookDistance
  | shortfall (needed : Int) (consumed : Nat)
  /-- A unit that does not match, or the end of the input. -/
  | unexpected (mode : Mode) (found : Option Code) (offset : Nat)
  | notRecording
  /-- The cursor was moved to before the start of the recording. -/
  | behindRecording (position start : Nat)
  | predicateWanted (literal : Literal)
  | bytesWanted
  /-- A splitter without further segments. -/
  | exhausted
  | noNumber (offset : Nat)
  | integerSyntax (text : Text)
  | integerDigits (count : Nat)
  | realSyntax (text : Text)
  /-- A text whose escapes or surrogates stand for nothing. -/
  | escape (defect : EscapeDefect)
  | badDelimiter (raw : Literal) (cause : Fault)
  /-- A limit that is no number has no place among the numbers of segments. -/
  | limitNotNumber
  | invalid (complaints : List FieldComplaint)
  | indexRange
  /-- An offset that exceeds every index. -/
  | indexOverflow
  /-- The length of a span that exceeds every index. -/
  | lengthOverflow
  | fileMissing (path : Text)
  | fileIsDirectory (path : Text)
  /-- The path leads on from a file. -/
  | notDirectory (path : Text)
  | nameTooLong (path : Text)
  /-- No file has a name with a null character. -/
  | nulInPath
  /-- A file that has to be UTF-8 and is not; the sequence starts at the offset. -/
  | undecodable (offset : Nat) (sequence : List UInt8) (reason : Utf8.Reason)
deriving DecidableEq, Repr

/-- The wording of a defect of UTF-8. -/
def Utf8.Reason.message : Utf8.Reason → String
  | .startByte => "invalid start byte"
  | .continuationByte => "invalid continuation byte"
  | .endOfData => "unexpected end of data"
  | .surrogate => "surrogates not allowed"
  | .leadByte byte => "invalid lead byte 0x" ++ String.ofList (Text.hexByte byte)
  | .truncated => "truncated sequence"
  | .malformed => "invalid utf-8"
  | .insideSequence => "offset inside a code point"

/-- A unit as messages show it. -/
def Mode.shownUnit (mode : Mode) (code : Code) : String :=
  match mode with
  | .bytes => toString code
  | .text => Text.quoted [code]

/-- A defect of UTF-8 as a refusal. -/
def Utf8.Defect.fault (defect : Utf8.Defect) : Fault :=
  .utf8 defect.offset defect.reason

namespace Fault

/-- Characters of a refused integer numeral that a message shows at most. -/
def shownLimit : Nat := 200

/-- Where a sequence stands; a single byte is shown. -/
def shownSequence (offset : Nat) (sequence : List UInt8) : String :=
  match sequence with
  | [byte] => "byte 0x" ++ String.ofList (Text.hexByte byte) ++ s!" in position {offset}"
  | _ =>
      let last := offset + sequence.length - 1
      s!"bytes in position {offset}-{last}"

def message : Fault → String
  | .byteRange value => s!"byte out of range: {value}"
  | .notOneByte literal => "not a single byte: " ++ literal.shown
  | .notOneCharacter literal => "not a single character: " ++ literal.shown
  | .codeRange => "chr() arg not in range(0x110000)"
  | .codeOverflow => "Python int too large to convert to C int"
  | .unencodable code => (EscapeDefect.surrogates 0 [code]).message
  | .positionOutside position start stop =>
      s!"checkpoint {position} outside [{start}, {stop}]"
  | .positionBeforeRecording position start =>
      s!"checkpoint {position} precedes recording start {start}"
  | .boundsOutside first last start stop =>
      s!"bounds [{first}, {last}) outside [{start}, {stop})"
  | .utf8 offset reason => reason.message ++ s!" at {offset}"
  | .lookDistance => "peek_at n must be >= 1"
  | .shortfall needed consumed => s!"shortfall: needed {needed}, consumed {consumed}"
  | .unexpected mode found offset =>
      let what := (found.map mode.shownUnit).getD "end of input"
      s!"unexpected {what} at {offset}"
  | .notRecording => "nothing recorded: call record() first"
  | .behindRecording position start =>
      s!"cursor at {position} is before recording start {start}"
  | .predicateWanted literal => "predicate must be callable, got " ++ literal.kindName
  | .bytesWanted => "BytesParser needs bytes; use StrParser for text"
  | .exhausted => ""
  | .noNumber offset => s!"no number at {offset}"
  | .integerSyntax text =>
      "invalid literal for int() with base 10: " ++
        String.ofList ((Text.quoted text).toList.take shownLimit)
  | .integerDigits count =>
      "Exceeds the limit (4300 digits) for integer string conversion: " ++
        s!"value has {count} digits; " ++
        "use sys.set_int_max_str_digits() to increase the limit"
  | .realSyntax text => "could not convert string to float: " ++ Text.quoted text
  | .escape defect => defect.message
  | .badDelimiter raw cause =>
      "bad delimiter " ++ raw.shown ++ ": " ++ cause.message
  | .limitNotNumber => "'>=' not supported between instances of 'int' and 'list'"
  | .invalid _ => ""
  | .indexRange => "index out of range"
  | .indexOverflow | .lengthOverflow => "cannot fit 'int' into an index-sized integer"
  | .fileMissing path => "[Errno 2] No such file or directory: " ++ Text.quoted path
  | .fileIsDirectory path => "[Errno 21] Is a directory: " ++ Text.quoted path
  | .notDirectory path => "[Errno 20] Not a directory: " ++ Text.quoted path
  | .nameTooLong path => "[Errno 36] File name too long: " ++ Text.quoted path
  | .nulInPath => "embedded null byte"
  | .undecodable offset sequence reason =>
      "'utf-8' codec can't decode " ++ shownSequence offset sequence ++ ": " ++ reason.message

/-- Whether the input, and not the call, is at fault. -/
def isParseFailure : Fault → Bool
  | .utf8 .. | .shortfall .. | .unexpected .. | .noNumber .. | .badDelimiter .. => true
  | _ => false

end Fault

end RecordScan
