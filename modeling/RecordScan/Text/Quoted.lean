import RecordScan.Text.Printable

/-!
Contract: the quoted forms in which messages show a text or a byte string.

Owns: the choice of the quote, the escapes, and the hexadecimal digits; and the
form of a text that is shown without quotes.
A quoted form is ASCII but for the printable characters it shows as they are,
so it is a `String` even where the text holds surrogates.
-/

namespace RecordScan.Text

/-- A lower-case hexadecimal digit. -/
def hexDigit (value : Nat) : Char :=
  if value < 10 then Char.ofNat (0x30 + value) else Char.ofNat (0x57 + value)

/-- The last `width` hexadecimal digits of a number. -/
def hexDigits : (width : Nat) → (value : Nat) → List Char
  | 0, _ => []
  | width + 1, value => hexDigits width (value / 16) ++ [hexDigit (value % 16)]

/-- A byte as two hexadecimal digits. -/
def hexByte (byte : UInt8) : List Char :=
  hexDigits 2 byte.toNat

/-- The escape of a character that cannot be shown, in the shortest of three widths. -/
def escapeCode (code : Code) : List Char :=
  if code < 0x100 then '\\' :: 'x' :: hexDigits 2 code
  else if code < 0x10000 then '\\' :: 'u' :: hexDigits 4 code
  else '\\' :: 'U' :: hexDigits 8 code

/-- The quote is single unless the text holds a single quote and no double one. -/
def quoteFor (codes : List Code) : Char :=
  if codes.contains '\''.toNat && !codes.contains '"'.toNat then '"' else '\''

/-- One character between `quote`s; `shown` tells which ones stand for themselves. -/
def quoteCode (shown : Code → Bool) (quote : Char) (code : Code) : List Char :=
  if code = quote.toNat || code = '\\'.toNat then ['\\', Char.ofNat code]
  else if code = '\t'.toNat then ['\\', 't']
  else if code = '\n'.toNat then ['\\', 'n']
  else if code = '\r'.toNat then ['\\', 'r']
  else if shown code then [Char.ofNat code]
  else escapeCode code

/-- Codes between quotes. -/
def quoteCodes (shown : Code → Bool) (codes : List Code) : List Char :=
  let quote := quoteFor codes
  quote :: codes.flatMap (quoteCode shown quote) ++ [quote]

/-- A text as messages show it: printable characters stand for themselves. -/
def quoted (text : Text) : String :=
  String.ofList (quoteCodes isPrintable text)

/-- A text as it stands in a message without quotes. A lone surrogate, which no string holds, is
shown by its escape. -/
def display (text : Text) : String :=
  String.ofList (text.flatMap fun code =>
    if code.isSurrogate then escapeCode code else [Char.ofNat code])

/-- A byte string as messages show it: printable ASCII stands for itself. -/
def quotedBytes (bytes : List UInt8) : String :=
  String.ofList
    ('b' :: quoteCodes (fun code => 0x20 ≤ code && code < 0x7F) (bytes.map UInt8.toNat))

/-- A byte string in hexadecimal. -/
def hex (bytes : List UInt8) : String :=
  String.ofList (bytes.flatMap hexByte)

end RecordScan.Text
