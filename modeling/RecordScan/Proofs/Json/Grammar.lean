import Mathlib.Data.List.Forall2

/-!
Contract: the grammar of standard JSON.

Owns: the texts of values (`Json.Value`), by one constructor for each kind, and those of
arrays with a number of elements (`Json.IsArray`); and what stands in a text outside of its
strings (`Json.outside`), where the texts of values have no `I` and no `N`.

Does not own: documents and how they are written (`RecordScan.Proofs.Json.Writing`).

The grammar knows no names but `null`, `true` and `false`. A text that names an infinite
number, or the number that is none, is told from a value by the capital of that name.
-/

namespace RecordScan.Json

/-! ## Values -/

def IsBlank (text : List Char) : Prop :=
  ∀ char ∈ text, char = ' ' ∨ char = '\t' ∨ char = '\n' ∨ char = '\r'

def IsDigits (text : List Char) : Prop :=
  text ≠ [] ∧ ∀ char ∈ text, char.isDigit = true

/-- Digits of which the first is zero only if it is the only one. -/
def IsWhole (text : List Char) : Prop :=
  IsDigits text ∧ (text.head? = some '0' → text = ['0'])

inductive IsFraction : List Char → Prop where
  | none : IsFraction []
  | point {digits : List Char} (areDigits : IsDigits digits) : IsFraction ('.' :: digits)

inductive IsExponent : List Char → Prop where
  | none : IsExponent []
  | unsigned {mark : Char} {digits : List Char} (isMark : mark = 'e' ∨ mark = 'E')
      (areDigits : IsDigits digits) : IsExponent (mark :: digits)
  | signed {mark sign : Char} {digits : List Char} (isMark : mark = 'e' ∨ mark = 'E')
      (isSign : sign = '+' ∨ sign = '-') (areDigits : IsDigits digits) :
      IsExponent (mark :: sign :: digits)

/-- A number without a sign. -/
inductive IsMagnitude : List Char → Prop where
  | mk {whole fraction exponent : List Char} (isWhole : IsWhole whole)
      (isFraction : IsFraction fraction) (isExponent : IsExponent exponent) :
      IsMagnitude (whole ++ (fraction ++ exponent))

inductive IsNumber : List Char → Prop where
  | positive {magnitude : List Char} (isMagnitude : IsMagnitude magnitude) : IsNumber magnitude
  | negative {magnitude : List Char} (isMagnitude : IsMagnitude magnitude) :
      IsNumber ('-' :: magnitude)

def isHex (char : Char) : Bool :=
  char.isDigit || ('a' ≤ char && char ≤ 'f') || ('A' ≤ char && char ≤ 'F')

/-- What may stand between the quotes of a string. -/
inductive Characters : List Char → Prop where
  | nil : Characters []
  | plain {char : Char} {rest : List Char} (printable : 0x20 ≤ char.toNat) (notQuote : char ≠ '"')
      (notBackslash : char ≠ '\\') (later : Characters rest) : Characters (char :: rest)
  | escape {letter : Char} {rest : List Char}
      (isLetter : letter ∈ ['"', '\\', '/', 'b', 'f', 'n', 'r', 't'])
      (later : Characters rest) : Characters ('\\' :: letter :: rest)
  | unit {digits rest : List Char} (isFour : digits.length = 4)
      (areHex : ∀ digit ∈ digits, isHex digit = true) (later : Characters rest) :
      Characters ('\\' :: 'u' :: (digits ++ rest))

inductive IsString : List Char → Prop where
  | mk {body : List Char} (characters : Characters body) : IsString ('"' :: (body ++ ['"']))

/-- An item with blanks around it. -/
def Pads (item padded : List Char) : Prop :=
  ∃ before after, IsBlank before ∧ IsBlank after ∧ padded = before ++ (item ++ after)

/-- Items between brackets, with commas between them and blanks around them. -/
inductive Encloses (opening closing : Char) : List (List Char) → List Char → Prop where
  | empty {blank : List Char} (isBlank : IsBlank blank) :
      Encloses opening closing [] (opening :: (blank ++ [closing]))
  | items {items padded : List (List Char)} (nonempty : items ≠ [])
      (areItems : List.Forall₂ Pads items padded) :
      Encloses opening closing items (opening :: ([','].intercalate padded ++ [closing]))

/-- A field of an object: its name, a colon with blanks around it, and its value. -/
inductive FieldText (name value : List Char) : List Char → Prop where
  | mk {before after : List Char} (isBefore : IsBlank before) (isAfter : IsBlank after) :
      FieldText name value (name ++ (before ++ ':' :: (after ++ value)))

/-- The texts of JSON values. -/
inductive Value : List Char → Prop where
  | null : Value ['n', 'u', 'l', 'l']
  | true : Value ['t', 'r', 'u', 'e']
  | false : Value ['f', 'a', 'l', 's', 'e']
  | number {text : List Char} (isNumber : IsNumber text) : Value text
  | string {text : List Char} (isString : IsString text) : Value text
  | array {items : List (List Char)} {text : List Char} (values : ∀ item ∈ items, Value item)
      (encloses : Encloses '[' ']' items text) : Value text
  | object {fields : List (List Char × List Char)} {items : List (List Char)} {text : List Char}
      (names : ∀ field ∈ fields, IsString field.1) (values : ∀ field ∈ fields, Value field.2)
      (areFields : List.Forall₂ (fun field item => FieldText field.1 field.2 item) fields items)
      (encloses : Encloses '\x7b' '\x7d' items text) : Value text

/-- The texts of arrays with a number of elements. -/
inductive IsArray (count : Nat) : List Char → Prop where
  | mk {items : List (List Char)} {text : List Char} (counted : items.length = count)
      (values : ∀ item ∈ items, Value item) (encloses : Encloses '[' ']' items text) :
      IsArray count text

theorem IsArray.value {count : Nat} {text : List Char} (isArray : IsArray count text) :
    Value text := by
  obtain ⟨-, values, encloses⟩ := isArray
  exact .array values encloses

/-! ## Outside of strings -/

/-- Where a character stands: outside of the strings, inside of one, or behind a backslash in
one. -/
inductive Place where
  | outside
  | inside
  | escaped
deriving DecidableEq, Repr

/-- The place of what follows a character. -/
def Place.after : Place → Char → Place
  | .outside, char => if char = '"' then .inside else .outside
  | .inside, char => if char = '"' then .outside else if char = '\\' then .escaped else .inside
  | .escaped, _ => .inside

/-- The characters outside of strings, from a place on. Quotes are left out. -/
def outsideFrom : Place → List Char → List Char
  | _, [] => []
  | place, char :: rest =>
      if place = .outside ∧ char ≠ '"' then char :: outsideFrom (place.after char) rest
      else outsideFrom (place.after char) rest

def outside (text : List Char) : List Char :=
  outsideFrom .outside text

/-- A text that leaves no string open, so that what follows it stands outside as well. -/
def Closed (text : List Char) : Prop :=
  ∀ rest, outside (text ++ rest) = outside text ++ outside rest

theorem closed_nil : Closed [] :=
  fun _ => rfl

theorem Closed.append {first second : List Char} (firstClosed : Closed first)
    (secondClosed : Closed second) : Closed (first ++ second) := by
  intro rest
  rw [List.append_assoc, firstClosed, secondClosed, firstClosed, List.append_assoc]

theorem outside_cons {char : Char} (notQuote : char ≠ '"') (rest : List Char) :
    outside (char :: rest) = char :: outside rest := by
  simp [outside, outsideFrom, Place.after, notQuote]

/-- A text without quotes stands outside as it is. -/
theorem outside_append {text : List Char} (noQuote : '"' ∉ text) (rest : List Char) :
    outside (text ++ rest) = text ++ outside rest := by
  induction text with
  | nil => rfl
  | cons char text inductionHypothesis =>
      rw [List.mem_cons, not_or] at noQuote
      rw [List.cons_append, outside_cons (Ne.symm noQuote.1), inductionHypothesis noQuote.2]
      rfl

theorem outside_eq_self {text : List Char} (noQuote : '"' ∉ text) : outside text = text := by
  have whole := outside_append noQuote []
  rwa [List.append_nil, show outside [] = [] from rfl, List.append_nil] at whole

theorem closed_of_notMem {text : List Char} (noQuote : '"' ∉ text) : Closed text := by
  intro rest
  rw [outside_append noQuote, outside_eq_self noQuote]

theorem outsideFrom_inside_append {text : List Char}
    (plain : ∀ char ∈ text, char ≠ '"' ∧ char ≠ '\\') (rest : List Char) :
    outsideFrom .inside (text ++ rest) = outsideFrom .inside rest := by
  induction text with
  | nil => rfl
  | cons char text inductionHypothesis =>
      obtain ⟨notQuote, notBackslash⟩ := plain char (List.mem_cons_self ..)
      have later := inductionHypothesis fun other member =>
        plain other (List.mem_cons_of_mem char member)
      simpa [outsideFrom, Place.after, notQuote, notBackslash] using later

theorem plain_of_isHex {char : Char} (digit : isHex char = true) : char ≠ '"' ∧ char ≠ '\\' := by
  constructor
  · rintro rfl
    revert digit
    decide
  · rintro rfl
    revert digit
    decide

/-- Characters of a string end at the quote behind them. -/
theorem Characters.outsideFrom_eq {body : List Char} (characters : Characters body)
    (rest : List Char) : outsideFrom .inside (body ++ '"' :: rest) = outside rest := by
  induction characters with
  | nil => rfl
  | plain printable notQuote notBackslash later inductionHypothesis =>
      simpa [outsideFrom, Place.after, notQuote, notBackslash] using inductionHypothesis
  | escape isLetter later inductionHypothesis =>
      simpa [outsideFrom, Place.after] using inductionHypothesis
  | unit isFour areHex later inductionHypothesis =>
      have digits := outsideFrom_inside_append fun digit member =>
        plain_of_isHex (areHex digit member)
      simpa [outsideFrom, Place.after, digits] using inductionHypothesis

/-- Nothing of a string stands outside. -/
theorem IsString.outside_append {text : List Char} (isString : IsString text) (rest : List Char) :
    outside (text ++ rest) = outside rest := by
  obtain ⟨characters⟩ := isString
  rw [List.cons_append, List.append_assoc]
  exact characters.outsideFrom_eq rest

theorem IsString.outside_eq {text : List Char} (isString : IsString text) : outside text = [] := by
  have whole := isString.outside_append []
  rwa [List.append_nil] at whole

theorem IsString.closed {text : List Char} (isString : IsString text) : Closed text := by
  intro rest
  rw [isString.outside_append, isString.outside_eq]
  rfl

/-! ## Names of numbers -/

/-- A capital stands outside of the strings with which the name of a number begins that JSON does
not have. -/
def HasName (text : List Char) : Prop :=
  'I' ∈ outside text ∨ 'N' ∈ outside text

theorem hasName_append {first second : List Char} (closed : Closed first) :
    HasName (first ++ second) ↔ HasName first ∨ HasName second := by
  unfold HasName
  rw [closed, List.mem_append, List.mem_append]
  tauto

/-- Characters that neither open a string nor begin such a name. -/
def IsPlain (text : List Char) : Prop :=
  ∀ char ∈ text, char ≠ '"' ∧ char ≠ 'I' ∧ char ≠ 'N'

theorem IsPlain.closed {text : List Char} (isPlain : IsPlain text) : Closed text :=
  closed_of_notMem fun member => (isPlain _ member).1 rfl

theorem IsPlain.noName {text : List Char} (isPlain : IsPlain text) : ¬ HasName text := by
  unfold HasName
  rw [outside_eq_self fun member => (isPlain _ member).1 rfl]
  rintro (member | member)
  · exact (isPlain _ member).2.1 rfl
  · exact (isPlain _ member).2.2 rfl

theorem IsString.noName {text : List Char} (isString : IsString text) : ¬ HasName text := by
  unfold HasName
  rw [isString.outside_eq]
  simp

/-- Joined by commas, closed texts make a closed text, with the names that they have. -/
theorem closed_intercalate {items : List (List Char)} (closed : ∀ item ∈ items, Closed item) :
    Closed ([','].intercalate items) ∧
      (HasName ([','].intercalate items) ↔ ∃ item ∈ items, HasName item) := by
  have comma : IsPlain [','] := by simp [IsPlain]
  induction items with
  | nil =>
      refine ⟨closed_nil, ?_⟩
      simp [HasName, outside, outsideFrom]
  | cons first rest inductionHypothesis =>
      have firstClosed := closed first (List.mem_cons_self ..)
      obtain ⟨laterClosed, later⟩ := inductionHypothesis fun item member =>
        closed item (List.mem_cons_of_mem first member)
      cases rest with
      | nil => simpa using firstClosed
      | cons second rest =>
          rw [List.intercalate_cons_cons]
          have begun := firstClosed.append comma.closed
          refine ⟨begun.append laterClosed, ?_⟩
          rw [hasName_append begun, hasName_append firstClosed, later]
          simp [comma.noName]

theorem IsBlank.isPlain {text : List Char} (isBlank : IsBlank text) : IsPlain text := by
  intro char member
  rcases isBlank char member with rfl | rfl | rfl | rfl
  · decide
  · decide
  · decide
  · decide

theorem IsDigits.isPlain {text : List Char} (areDigits : IsDigits text) : IsPlain text := by
  intro char member
  have isDigit := areDigits.2 char member
  refine ⟨?_, ?_, ?_⟩
  · rintro rfl
    cases isDigit
  · rintro rfl
    cases isDigit
  · rintro rfl
    cases isDigit

theorem Pads.closed {item padded : List Char} (pads : Pads item padded) (closed : Closed item) :
    Closed padded ∧ (HasName padded ↔ HasName item) := by
  obtain ⟨before, after, isBefore, isAfter, rfl⟩ := pads
  have front := isBefore.isPlain
  have back := isAfter.isPlain
  refine ⟨front.closed.append (closed.append back.closed), ?_⟩
  rw [hasName_append front.closed, hasName_append closed]
  simp [front.noName, back.noName]

theorem FieldText.closed {name value text : List Char} (field : FieldText name value text)
    (isString : IsString name) (closed : Closed value) :
    Closed text ∧ (HasName text ↔ HasName value) := by
  obtain ⟨isBefore, isAfter⟩ := field
  have colon : IsPlain [':'] := by simp [IsPlain]
  have back := colon.closed.append (isAfter.isPlain.closed.append closed)
  refine ⟨isString.closed.append (isBefore.isPlain.closed.append back), ?_⟩
  rw [hasName_append isString.closed, hasName_append isBefore.isPlain.closed,
    ← List.singleton_append, hasName_append colon.closed, hasName_append isAfter.isPlain.closed]
  simp [isString.noName, isBefore.isPlain.noName, isAfter.isPlain.noName, colon.noName]

/-- What holds of related texts one by one holds of all of them. -/
theorem closed_of_forall₂ {α : Type} {related : α → List Char → Prop} {named : α → Prop}
    {members : List α} {texts : List (List Char)} (areRelated : List.Forall₂ related members texts)
    (each : ∀ member ∈ members, ∀ text, related member text →
      Closed text ∧ (HasName text ↔ named member)) :
    (∀ text ∈ texts, Closed text) ∧
      ((∃ text ∈ texts, HasName text) ↔ ∃ member ∈ members, named member) := by
  induction areRelated with
  | nil => simp
  | cons isRelated _ inductionHypothesis =>
      obtain ⟨firstClosed, firstNamed⟩ := each _ (List.mem_cons_self ..) _ isRelated
      obtain ⟨laterClosed, laterNamed⟩ := inductionHypothesis fun member isMember =>
        each member (List.mem_cons_of_mem _ isMember)
      refine ⟨List.forall_mem_cons.mpr ⟨firstClosed, laterClosed⟩, ?_⟩
      rw [List.exists_mem_cons_iff, firstNamed, laterNamed, List.exists_mem_cons_iff]

/-- Brackets around closed items make a closed text, with the names that the items have. -/
theorem Encloses.closed {opening closing : Char} {items : List (List Char)} {text : List Char}
    (encloses : Encloses opening closing items text) (isOpening : IsPlain [opening])
    (isClosing : IsPlain [closing]) (closed : ∀ item ∈ items, Closed item) :
    Closed text ∧ (HasName text ↔ ∃ item ∈ items, HasName item) := by
  have bracketed {body : List Char} (bodyClosed : Closed body) :
      Closed (opening :: (body ++ [closing])) ∧
        (HasName (opening :: (body ++ [closing])) ↔ HasName body) := by
    refine ⟨isOpening.closed.append (bodyClosed.append isClosing.closed), ?_⟩
    rw [← List.singleton_append, hasName_append isOpening.closed, hasName_append bodyClosed]
    simp [isOpening.noName, isClosing.noName]
  cases encloses with
  | empty isBlank =>
      obtain ⟨textClosed, named⟩ := bracketed isBlank.isPlain.closed
      refine ⟨textClosed, ?_⟩
      simp [named, isBlank.isPlain.noName]
  | items nonempty areItems =>
      obtain ⟨paddedClosed, padded⟩ := closed_of_forall₂ areItems fun item member text pads =>
        pads.closed (closed item member)
      obtain ⟨joinedClosed, joined⟩ := closed_intercalate paddedClosed
      obtain ⟨textClosed, named⟩ := bracketed joinedClosed
      exact ⟨textClosed, by rw [named, joined, padded]⟩

theorem IsFraction.isPlain {text : List Char} (isFraction : IsFraction text) : IsPlain text := by
  cases isFraction with
  | none => simp [IsPlain]
  | point areDigits => exact List.forall_mem_cons.mpr ⟨by decide, areDigits.isPlain⟩

theorem IsExponent.isPlain {text : List Char} (isExponent : IsExponent text) : IsPlain text := by
  have isMarkPlain {mark : Char} (isMark : mark = 'e' ∨ mark = 'E') :
      mark ≠ '"' ∧ mark ≠ 'I' ∧ mark ≠ 'N' := by
    rcases isMark with rfl | rfl
    · decide
    · decide
  cases isExponent with
  | none => simp [IsPlain]
  | unsigned isMark areDigits =>
      exact List.forall_mem_cons.mpr ⟨isMarkPlain isMark, areDigits.isPlain⟩
  | signed isMark isSign areDigits =>
      refine List.forall_mem_cons.mpr ⟨isMarkPlain isMark,
        List.forall_mem_cons.mpr ⟨?_, areDigits.isPlain⟩⟩
      rcases isSign with rfl | rfl
      · decide
      · decide

theorem IsMagnitude.isPlain {text : List Char} (isMagnitude : IsMagnitude text) :
    IsPlain text := by
  obtain ⟨isWhole, isFraction, isExponent⟩ := isMagnitude
  exact List.forall_mem_append.mpr ⟨isWhole.1.isPlain,
    List.forall_mem_append.mpr ⟨isFraction.isPlain, isExponent.isPlain⟩⟩

theorem IsNumber.isPlain {text : List Char} (isNumber : IsNumber text) : IsPlain text := by
  cases isNumber with
  | positive isMagnitude => exact isMagnitude.isPlain
  | negative isMagnitude => exact List.forall_mem_cons.mpr ⟨by decide, isMagnitude.isPlain⟩

/-- **The text of a value names no number.** -/
theorem Value.closed {text : List Char} (value : Value text) : Closed text ∧ ¬ HasName text := by
  have plain {text : List Char} (isPlain : IsPlain text) : Closed text ∧ ¬ HasName text :=
    ⟨isPlain.closed, isPlain.noName⟩
  induction value with
  | null => exact plain (by simp [IsPlain])
  | true => exact plain (by simp [IsPlain])
  | false => exact plain (by simp [IsPlain])
  | number isNumber => exact plain isNumber.isPlain
  | string isString => exact ⟨isString.closed, isString.noName⟩
  | array values encloses inductionHypothesis =>
      obtain ⟨textClosed, named⟩ := encloses.closed (by simp [IsPlain]) (by simp [IsPlain])
        fun item member => (inductionHypothesis item member).1
      refine ⟨textClosed, ?_⟩
      rw [named]
      rintro ⟨item, member, hasName⟩
      exact (inductionHypothesis item member).2 hasName
  | object names values areFields encloses inductionHypothesis =>
      obtain ⟨itemsClosed, items⟩ := closed_of_forall₂ areFields fun field member item isField =>
        isField.closed (names field member) (inductionHypothesis field member).1
      obtain ⟨textClosed, named⟩ :=
        encloses.closed (by simp [IsPlain]) (by simp [IsPlain]) itemsClosed
      refine ⟨textClosed, ?_⟩
      rw [named, items]
      rintro ⟨field, member, hasName⟩
      exact (inductionHypothesis field member).2 hasName

end RecordScan.Json
