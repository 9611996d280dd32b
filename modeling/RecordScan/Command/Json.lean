import RecordScan.Decimal.Written
import RecordScan.Text.Quoted

/-!
Contract: printed results.

Owns: JSON documents and their text, indented or in one line. Texts are ASCII:
every other character is escaped, one above U+FFFF as a surrogate pair.
-/

namespace RecordScan

/-- A JSON document. The fields of an object keep their order. -/
inductive JsonValue where
  | null
  | integer (value : Int)
  | real (value : Binary64)
  | string (value : Text)
  | array (items : List JsonValue)
  | object (fields : List (String × JsonValue))

namespace JsonValue

/-! ## Strings -/

def escapeUnit (unit : Nat) : List Char :=
  '\\' :: 'u' :: Text.hexDigits 4 unit

/-- A character between the quotes of a JSON string. -/
def writeCode (code : Code) : List Char :=
  if code = 0x22 || code = 0x5C then ['\\', Char.ofNat code]
  else if 0x20 ≤ code ∧ code ≤ 0x7E then [Char.ofNat code]
  else if code = 0x08 then ['\\', 'b']
  else if code = 0x09 then ['\\', 't']
  else if code = 0x0A then ['\\', 'n']
  else if code = 0x0C then ['\\', 'f']
  else if code = 0x0D then ['\\', 'r']
  else if code < 0x10000 then escapeUnit code
  else
    let offset := code - 0x10000
    escapeUnit (0xD800 + offset / 0x400) ++ escapeUnit (0xDC00 + offset % 0x400)

def writeString (text : Text) : String :=
  String.ofList ('"' :: text.flatMap writeCode ++ ['"'])

/-! ## Layout -/

/-- How items are set apart: the text between two items, and the text before the first and
after the last, which an indented layout breaks lines with. -/
structure Layout where
  between : String
  /-- The line break before an item at a depth; empty in a layout of one line. -/
  lineBreak : Nat → String

/-- One item a line, indented by two spaces a level. -/
def Layout.indented : Layout :=
  ⟨",", fun depth => "\n" ++ String.ofList (List.replicate (2 * depth) ' ')⟩

/-- All in one line. -/
def Layout.line : Layout :=
  ⟨", ", fun _ => ""⟩

/-- Items between brackets; no break between the brackets of an empty list. -/
def enclose (layout : Layout) (opening closing : String) (depth : Nat) (items : List String) :
    String :=
  if items.isEmpty then opening ++ closing
  else
    opening ++ layout.lineBreak (depth + 1) ++
      (layout.between ++ layout.lineBreak (depth + 1)).intercalate items ++
      layout.lineBreak depth ++ closing

mutual

/-- The text of a document at a depth. -/
def write (layout : Layout) (depth : Nat) : JsonValue → String
  | .null => "null"
  | .integer value => toString value
  | .real value => value.write .result
  | .string value => writeString value
  | .array items => enclose layout "[" "]" depth (writeItems layout (depth + 1) items)
  | .object fields =>
      enclose layout "\x7b" "\x7d" depth (writeFields layout (depth + 1) fields)

def writeItems (layout : Layout) (depth : Nat) : List JsonValue → List String
  | [] => []
  | item :: items => write layout depth item :: writeItems layout depth items

def writeFields (layout : Layout) (depth : Nat) : List (String × JsonValue) → List String
  | [] => []
  | (name, value) :: fields =>
      (writeString (Text.ofString name) ++ ": " ++ write layout depth value) ::
        writeFields layout depth fields

end

/-- The document as it is printed. -/
def print (document : JsonValue) : String :=
  document.write .indented 0

end JsonValue

end RecordScan
