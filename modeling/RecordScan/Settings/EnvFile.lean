import RecordScan.Text.Blank

/-!
Contract: files of environment variables.

Owns: the reading of such a file into bindings. A line binds a name to a value,
`NAME=value`; the value may stand between quotes, where it may span lines and
hold escapes, and ends at a comment otherwise. Lines that bind nothing are
skipped, and so is the rest of a line that cannot be read. A value may refer to
the environment and to names bound before it.
-/

namespace RecordScan.EnvFile

/-- A name and the value bound to it, if one was given. -/
structure Binding where
  name : String
  value : Option String
deriving DecidableEq, Repr

/-! ## Characters -/

def isBlank (char : Char) : Bool :=
  Text.isBlank char.toNat

/-- Line ends are unified before a file is read. -/
def isLineEnd (char : Char) : Bool :=
  char = '\n'

/-- Every line end as a single line feed. -/
def unifyLineEnds : List Char → List Char
  | [] => []
  | '\r' :: '\n' :: rest => '\n' :: unifyLineEnds rest
  | char :: rest => (if char = '\r' then '\n' else char) :: unifyLineEnds rest

/-- Blanks that do not end a line. -/
def isInlineBlank (char : Char) : Bool :=
  isBlank char && !isLineEnd char

/-- Characters of a name without quotes. -/
def isNameChar (char : Char) : Bool :=
  char != '=' && char != '#' && !isBlank char

/-! ## Values -/

/-- The character an escape stands for between double quotes. -/
def escaped? : Char → Option Char
  | 'a' => some '\x07'
  | 'b' => some '\x08'
  | 'f' => some '\x0c'
  | 'n' => some '\n'
  | 'r' => some '\r'
  | 't' => some '\t'
  | 'v' => some '\x0b'
  | char => if char = '\\' || char = '\'' || char = '"' then some char else none

/-- Between single quotes only the backslash and the quote are escaped. -/
def escapedSingle? (char : Char) : Option Char :=
  if char = '\\' || char = '\'' then some char else none

/-- Replaces escapes by the characters they stand for; others stay as they are. -/
def unescape (escape : Char → Option Char) : List Char → List Char
  | [] => []
  | [char] => [char]
  | '\\' :: char :: rest =>
      match escape char with
      | some replaced => replaced :: unescape escape rest
      | none => '\\' :: unescape escape (char :: rest)
  | char :: next :: rest => char :: unescape escape (next :: rest)

/-- Splits at the closing quote. A backslash takes the character after it along, so that a
quote there never closes: nothing is tried again where no later one does. -/
def takeQuoted (quote : Char) : List Char → Option (List Char × List Char)
  | [] => none
  | [char] => if char = quote then some ([], []) else none
  | char :: next :: rest =>
      if char = quote then some ([], next :: rest)
      else if char = '\\' then
        (takeQuoted quote rest).map fun found => (char :: next :: found.1, found.2)
      else (takeQuoted quote (next :: rest)).map fun found => (char :: found.1, found.2)

/-- The part of a line before a comment, which starts with `#` after a blank. -/
def beforeComment : List Char → List Char
  | [] => []
  | char :: rest =>
      if isBlank char && (rest.dropWhile isBlank).head? = some '#' then []
      else char :: beforeComment rest

def trimRight (chars : List Char) : List Char :=
  (chars.reverse.dropWhile isBlank).reverse

/-- A value and what follows it. -/
def takeValue (chars : List Char) : Option (List Char × List Char) :=
  match chars with
  | '\'' :: rest =>
      (takeQuoted '\'' rest).map fun found => (unescape escapedSingle? found.1, found.2)
  | '"' :: rest => (takeQuoted '"' rest).map fun found => (unescape escaped? found.1, found.2)
  | _ =>
      let line := chars.takeWhile fun char => !isLineEnd char
      some (trimRight (beforeComment line), chars.drop line.length)

/-! ## Bindings -/

/-- Drops the word that may mark a variable as exported. -/
def dropExport (chars : List Char) : List Char :=
  match chars with
  | 'e' :: 'x' :: 'p' :: 'o' :: 'r' :: 't' :: rest =>
      if (rest.head?.map isInlineBlank).getD false then rest.dropWhile isInlineBlank else chars
  | _ => chars

/-- A name and what follows it; a comment has none. -/
def takeName (chars : List Char) : Option (Option (List Char) × List Char) :=
  match chars with
  | '#' :: _ => some (none, chars)
  | '\'' :: rest =>
      let name := rest.takeWhile (· != '\'')
      let after := rest.drop name.length
      if name.isEmpty || after.isEmpty then none else some (some name, after.drop 1)
  | _ =>
      let name := chars.takeWhile isNameChar
      if name.isEmpty then none else some (some name, chars.drop name.length)

/-- The value after an equals sign, and the rest. A comment may follow at once, but only
after a blank. -/
def takeAfterEquals (chars : List Char) : Option (List Char × List Char) :=
  let body := chars.dropWhile isInlineBlank
  if body.head? = some '#' && body.length < chars.length then some ([], body)
  else takeValue body

/-- The value after a name, if an equals sign follows, and the rest. -/
def takeAssigned (chars : List Char) : Option (Option (List Char) × List Char) :=
  match chars.dropWhile isInlineBlank with
  | '=' :: rest => (takeAfterEquals rest).map fun found => (some found.1, found.2)
  | rest => some (none, rest)

/-- Drops a comment up to the end of the line, which must follow. -/
def atLineEnd (chars : List Char) : Bool :=
  match (chars.dropWhile isInlineBlank).head? with
  | none => true
  | some char => char = '#' || isLineEnd char

/-- What follows the current line. -/
def nextLine (chars : List Char) : List Char :=
  (chars.dropWhile fun char => !isLineEnd char).drop 1

/-- Reads one binding off a line that starts with a character other than a blank. Answers it,
if there is one, and the lines that follow. -/
def takeBinding (chars : List Char) : Option Binding × List Char :=
  match takeName (dropExport chars) with
  | none => (none, nextLine chars)
  | some (name?, afterName) =>
      match takeAssigned afterName with
      | none => (none, nextLine afterName)
      | some (value?, afterValue) =>
          let binding? : Option Binding :=
            if atLineEnd afterValue then
              name?.map fun name => ⟨String.ofList name, value?.map String.ofList⟩
            else none
          (binding?, nextLine afterValue)

/-- Reads lines until none is left; every round leaves at least one character behind. -/
def bindingsLoop : (rounds : Nat) → List Char → List Binding
  | 0, _ => []
  | rounds + 1, chars =>
      match chars.dropWhile isBlank with
      | [] => []
      | chars =>
          let (binding?, rest) := takeBinding chars
          binding?.toList ++ bindingsLoop rounds rest

/-- Drops the mark that may stand at the front of a file. -/
def dropMark : List Char → List Char
  | '\ufeff' :: rest => rest
  | chars => chars

/-- The bindings of a file as they are written, in order. -/
def bindings (file : String) : List Binding :=
  bindingsLoop file.length (unifyLineEnds (dropMark file.toList))

/-! ## References -/

/-- A reference in a value, without its dollar sign and its opening brace: the name, the text
that stands in for a name that is not bound, and what follows. -/
def takeReference (chars : List Char) : Option (List Char × List Char × List Char) :=
  let name := chars.takeWhile fun char => char != '\x7d' && char != ':'
  match chars.drop name.length with
  | '\x7d' :: rest => some (name, [], rest)
  | ':' :: '-' :: rest =>
      let substitute := rest.takeWhile (· != '\x7d')
      match rest.drop substitute.length with
      | _ :: rest => some (name, substitute, rest)
      | [] => none
  | _ => none

/-- Replaces the references in a value; each round leaves at least one character behind. -/
def resolveLoop (lookup : String → Option String) : (rounds : Nat) → List Char → List Char
  | 0, _ => []
  | _ + 1, [] => []
  | rounds + 1, char :: rest =>
      match char, rest with
      | '$', '\x7b' :: body =>
          match takeReference body with
          | some (name, substitute, rest) =>
              let value := (lookup (String.ofList name)).map String.toList
              value.getD substitute ++ resolveLoop lookup rounds rest
          | none => char :: resolveLoop lookup rounds rest
      | _, _ => char :: resolveLoop lookup rounds rest

/-- A value with its references replaced. -/
def resolve (lookup : String → Option String) (value : String) : String :=
  String.ofList (resolveLoop lookup value.length value.toList)

/-- Resolves bindings in order. A name bound before, even to nothing, hides the environment. -/
def resolveAll (environment : List (String × String)) (earlier : List Binding) :
    List Binding → List Binding
  | [] => []
  | binding :: rest =>
      let lookup (name : String) : Option String :=
        match earlier.find? (·.name == name) with
        | some bound => some (bound.value.getD "")
        | none => environment.lookup name
      let resolved := { binding with value := binding.value.map (resolve lookup) }
      resolved :: resolveAll environment (resolved :: earlier) rest

/-- The bindings of a file under an environment, in order. -/
def read (environment : List (String × String)) (file : String) : List Binding :=
  resolveAll environment [] (bindings file)

end RecordScan.EnvFile
