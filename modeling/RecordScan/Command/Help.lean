import RecordScan.Text.Code

/-!
Contract: the help texts of the command line.

Owns: the commands with their names, and the text that each level of the command
line prints about itself.
-/

namespace RecordScan

/-- What the command line can do. -/
inductive Command where
  /-- Print the segments between delimiters. -/
  | split
  /-- Read key/value lines. -/
  | keyValues
  /-- Read one number a segment. -/
  | numbers
deriving DecidableEq, Repr

namespace Command

def all : List Command := [.split, .keyValues, .numbers]

def name : Command → String
  | .split => "split"
  | .keyValues => "kv"
  | .numbers => "numbers"

def ofName? (name : Text) : Option Command :=
  all.find? (Text.ofString ·.name == name)

/-- Whether the command can print a summary instead of its results. -/
def hasSummary : Command → Bool
  | .split | .numbers => true
  | .keyValues => false

end Command

namespace Help

/-- The program's name. -/
def program : String := "byteparse"

/-- The name under which a command reports misuse. -/
def programOf (command : Command) : String :=
  program ++ " " ++ command.name

def lines (texts : List String) : String :=
  String.join (texts.map (· ++ "\n"))

def topUsage : List String :=
  ["usage: byteparse [-h] [--log-level LOG_LEVEL] \x7bsplit,kv,numbers\x7d ..."]

def top : String :=
  lines (topUsage ++ [
    "",
    "zero-copy line/record scanning utilities",
    "",
    "positional arguments:",
    "  \x7bsplit,kv,numbers\x7d",
    "    split               print the segments between delimiters as JSON",
    "    kv                  parse `key: value` lines as JSON",
    "    numbers             parse one number per segment as JSON",
    "",
    "options:",
    "  -h, --help            show this help message and exit",
    "  --log-level LOG_LEVEL",
    "                        override BYTEPARSE_LOG_LEVEL"])

def usage : Command → List String
  | .split => [
      "usage: byteparse split [-h] [--delimiter DELIMITER]",
      "                       [--max-segments MAX_SEGMENTS] [--bytes] [--summary]",
      "                       input"]
  | .keyValues => [
      "usage: byteparse kv [-h] [--delimiter DELIMITER] [--max-segments MAX_SEGMENTS]",
      "                    [--bytes]",
      "                    input"]
  | .numbers => [
      "usage: byteparse numbers [-h] [--delimiter DELIMITER]",
      "                         [--max-segments MAX_SEGMENTS] [--bytes] [--summary]",
      "                         input"]

def shared : List String := [
  "",
  "positional arguments:",
  "  input                 Path to the input file",
  "",
  "options:",
  "  -h, --help            show this help message and exit",
  "  --delimiter DELIMITER",
  "                        Segment delimiter (escapes like \\n allowed)",
  "  --max-segments MAX_SEGMENTS",
  "                        Stop after N segments",
  "  --bytes               Scan raw bytes instead of UTF-8 text"]

def summary : Command → List String
  | .split => ["  --summary             Only print the segment count"]
  | .keyValues => []
  | .numbers => ["  --summary             Only print parsed/failed counts"]

def ofCommand (command : Command) : String :=
  lines (usage command ++ shared ++ summary command)

end Help

end RecordScan
