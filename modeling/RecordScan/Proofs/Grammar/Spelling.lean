import Mathlib.Data.List.TakeWhile
import RecordScan.Grammar.Number

/-!
Contract: how numbers are written.

Owns: the spellings of numbers (`Number.Spelling`), a sign or none, digits, and digits
after a point if there is one, with the text and the number of each; that a spelling
which ends where the text goes on otherwise is the longest one there
(`Spelling.exists_more`), and that a text has one spelling at most; and the numeral
readers on these texts, which read an integer of too many digits as such.

A spelling has digits before the point, so no text is the spelling of nothing.
-/

namespace RecordScan

-- Codes are named as numbers here, for the arithmetic of their ranges.
theorem Code.isAsciiDigit_iff {code : Nat} :
    Code.isAsciiDigit code = true ↔ 0x30 ≤ code ∧ code ≤ 0x39 := by
  simp [Code.isAsciiDigit]

theorem Code.exists_digit {code : Nat} (isDigit : Code.isAsciiDigit code = true) :
    ∃ value : Fin 10, code = 0x30 + value.val := by
  obtain ⟨low, high⟩ := Code.isAsciiDigit_iff.mp isDigit
  exact ⟨⟨code - 0x30, by omega⟩, by dsimp only; omega⟩

namespace Numeral

theorem isAsciiSpace_iff {code : Nat} :
    isAsciiSpace code = true ↔ code = 0x20 ∨ 0x09 ≤ code ∧ code ≤ 0x0D := by
  simp [isAsciiSpace]

theorem lowerCode_of_le {code : Nat} (low : code ≤ 0x39) : lowerCode code = code :=
  if_neg fun isLetter => absurd (Nat.le_trans isLetter.1 low) (by decide)

/-- No word for a number has a digit. -/
theorem word?_of_digit {negative : Bool} {code : Code} {body : Text}
    (member : code ∈ body) (digit : isDigit code = true) :
    word? negative body = none := by
  have isLowered : lowerCode code = code := lowerCode_of_le (Code.isAsciiDigit_iff.mp digit).2
  have differs {word : Text} (letters : word.all (fun code => !isDigit code) = true) :
      body.map lowerCode ≠ word := by
    rintro rfl
    have isLetter := List.all_eq_true.mp letters _ (List.mem_map_of_mem member)
    rw [isLowered, digit] at isLetter
    cases isLetter
  have notShort := @differs (Text.ofString "inf") (by decide)
  have notLong := @differs (Text.ofString "infinity") (by decide)
  have notNan := @differs (Text.ofString "nan") (by decide)
  simp [word?, notShort, notLong, notNan]

end Numeral

namespace Number

/-- Only an integer that is negative without having a minus fails the check. -/
theorem checked_whole_iff {negative : Bool} {value : Int} {number : Number} :
    Number.checked (if negative then .integer else .uint) (.whole value) = .ok number ↔
      (negative = false → 0 ≤ value) ∧
        ⟨if negative then .integer else .uint, .whole value⟩ = number := by
  cases negative with
  | true => simp [Number.checked]
  | false =>
      by_cases isNegative : value < 0
      · simp [Number.checked, NumberValue.isNegative, isNegative, Int.not_le.mpr isNegative]
      · simp [Number.checked, NumberValue.isNegative, isNegative, Int.not_lt.mp isNegative]

/-- A number as it is written. -/
@[ext] structure Spelling where
  /-- Whether there is a minus. -/
  negative : Bool
  whole : List (Fin 10)
  /-- The digits after the point, if there is one. -/
  fraction : Option (List (Fin 10))
  whole_ne_nil : whole ≠ []

namespace Spelling

/-! ## Texts and values -/

/-- Digits as ASCII characters. -/
def digits (values : List (Fin 10)) : Text :=
  values.map fun value => 0x30 + value.val

/-- The number that a row of digits writes. -/
def value (values : List (Fin 10)) : Nat :=
  Numeral.digitsValue (values.map Fin.val)

def sign (negative : Bool) : Text :=
  if negative then [0x2D] else []

/-- A point and the digits after it. -/
def point : Option (List (Fin 10)) → Text
  | none => []
  | some values => 0x2E :: digits values

def text (spelling : Spelling) : Text :=
  sign spelling.negative ++ (digits spelling.whole ++ point spelling.fraction)

/-- The integer that is written before the point. -/
def integer (spelling : Spelling) : Int :=
  if spelling.negative then -value spelling.whole else value spelling.whole

/-- The floating-point number closest to what is written with these digits after the point. -/
def real (spelling : Spelling) (fraction : List (Fin 10)) : Binary64 :=
  .ofDecimal spelling.negative (value (spelling.whole ++ fraction)) (-fraction.length)

/-- The number that is written. Without a point it is an integer, unsigned if it has no minus. -/
def number (spelling : Spelling) : Number :=
  match spelling.fraction with
  | none => ⟨if spelling.negative then .integer else .uint, .whole spelling.integer⟩
  | some fraction => ⟨.float, .real (spelling.real fraction)⟩

variable {spelling other : Spelling} {values others : List (Fin 10)} {rest tail : Text}

theorem digits_append : digits (values ++ others) = digits values ++ digits others :=
  List.map_append

@[simp] theorem length_digits : (digits values).length = values.length :=
  List.length_map _

theorem isAsciiDigit_digit (digit : Fin 10) : Code.isAsciiDigit (0x30 + digit.val) = true := by
  rw [Code.isAsciiDigit_iff]
  omega

theorem isAsciiDigit_of_mem {code : Code} (member : code ∈ digits values) :
    code.isAsciiDigit = true := by
  obtain ⟨digit, -, rfl⟩ := List.mem_map.mp member
  exact isAsciiDigit_digit digit

theorem text_ne_nil (spelling : Spelling) : spelling.text ≠ [] := by
  have noDigits : digits spelling.whole ≠ [] := mt List.map_eq_nil_iff.mp spelling.whole_ne_nil
  exact List.append_ne_nil_of_right_ne_nil _ (List.append_ne_nil_of_left_ne_nil noDigits _)

theorem exists_digits {codes : Text} (areDigits : ∀ code ∈ codes, code.isAsciiDigit = true) :
    ∃ values, codes = digits values := by
  induction codes with
  | nil => exact ⟨[], rfl⟩
  | cons code codes inductionHypothesis =>
      obtain ⟨value, rfl⟩ := Code.exists_digit (areDigits code (List.mem_cons_self ..))
      obtain ⟨values, rfl⟩ :=
        inductionHypothesis fun later member => areDigits later (List.mem_cons_of_mem _ member)
      exact ⟨value :: values, rfl⟩

/-! ## Longest spellings -/

/-- A text that does not begin with a digit. -/
def EndsDigits (rest : Text) : Prop :=
  ∀ code ∈ rest.head?, code.isAsciiDigit = false

theorem EndsDigits.head?_ne (endsDigits : EndsDigits rest) (digit : Fin 10) :
    rest.head? ≠ some (0x30 + digit.val) := by
  intro isHead
  have isDigit := isAsciiDigit_digit digit
  rw [endsDigits _ isHead] at isDigit
  cases isDigit

theorem endsDigits_some (fraction : List (Fin 10)) (rest : Text) :
    EndsDigits (point (some fraction) ++ rest) := by
  intro code isHead
  cases isHead
  decide

/-- Where a spelling ends, a text goes on with something else. -/
structure Ends (spelling : Spelling) (rest : Text) : Prop where
  endsDigits : EndsDigits rest
  endsWhole : spelling.fraction = none → rest.head? ≠ some 0x2E

theorem ends_nil (spelling : Spelling) : spelling.Ends [] :=
  ⟨nofun, nofun⟩

/-- A spelling is the longest one at the beginning of a text. -/
def Longest (spelling : Spelling) (text : Text) : Prop :=
  spelling.text <+: text ∧
    ∀ other : Spelling, other.text <+: text → other.text.length ≤ spelling.text.length

/-- Digits before a text that goes on with a digit or not, against digits before one that does
not: the former are the first of the latter. -/
theorem exists_more_digits (endsDigits : EndsDigits rest)
    (same : digits values ++ tail = digits others ++ rest) :
    ∃ more, others = values ++ more ∧ tail = digits more ++ rest := by
  induction values generalizing others with
  | nil => exact ⟨others, rfl, same⟩
  | cons first values inductionHypothesis =>
      cases others with
      | nil =>
          have isHead : rest.head? = some (0x30 + first.val) := by
            rw [← List.nil_append rest]
            exact congrArg List.head? same.symm
          exact absurd isHead (endsDigits.head?_ne first)
      | cons second others =>
          obtain ⟨sameFirst, sameRest⟩ := List.cons.inj same
          obtain ⟨more, rfl, isTail⟩ := inductionHypothesis sameRest
          have : first = second := Fin.ext (Nat.add_left_cancel sameFirst)
          exact ⟨more, by rw [this]; rfl, isTail⟩

theorem point_eq_nil {fraction : Option (List (Fin 10))} (isNil : point fraction = []) :
    fraction = none := by
  cases fraction with
  | none => rfl
  | some values => cases isNil

/-- No digit is a minus, so what stands before digits is the same sign in both. -/
theorem sign_inj {first second : Bool} (hasValues : values ≠ []) (hasOthers : others ≠ [])
    (same : sign first ++ (digits values ++ tail) = sign second ++ (digits others ++ rest)) :
    first = second ∧ digits values ++ tail = digits others ++ rest := by
  obtain ⟨value, values, rfl⟩ := List.exists_cons_of_ne_nil hasValues
  obtain ⟨other, others, rfl⟩ := List.exists_cons_of_ne_nil hasOthers
  cases first with
  | false =>
      cases second with
      | false => exact ⟨rfl, same⟩
      | true =>
          have isMinus : 0x30 + value.val = 0x2D := (List.cons.inj same).1
          omega
  | true =>
      cases second with
      | false =>
          have isMinus : 0x2D = 0x30 + other.val := (List.cons.inj same).1
          omega
      | true => exact ⟨rfl, (List.cons.inj same).2⟩

theorem endsDigits_point (ends : spelling.Ends rest) :
    EndsDigits (point spelling.fraction ++ rest) := by
  cases isFraction : spelling.fraction with
  | none => exact ends.endsDigits
  | some fraction => exact endsDigits_some fraction rest

/-- A point that ends digits before a text begins what is spelled after them. -/
theorem exists_more_fraction {fraction : List (Fin 10)} (ends : spelling.Ends rest)
    (same : point (some fraction) ++ tail = point spelling.fraction ++ rest) :
    ∃ more, spelling.fraction = some (fraction ++ more) := by
  cases isFraction : spelling.fraction with
  | none =>
      rw [isFraction] at same
      have isPoint : rest.head? = some 0x2E := congrArg List.head? same.symm
      exact absurd isPoint (ends.endsWhole isFraction)
  | some longer =>
      rw [isFraction] at same
      obtain ⟨more, rfl, -⟩ := exists_more_digits ends.endsDigits (List.cons.inj same).2
      exact ⟨more, rfl⟩

/-- **A spelling that ends is the longest.** Every spelling at the beginning of the same text is
the beginning of it, and is all of it only if it is the same spelling. -/
theorem exists_more (ends : spelling.Ends rest)
    (same : other.text ++ tail = spelling.text ++ rest) :
    ∃ more, spelling.text = other.text ++ more ∧ (more = [] → other = spelling) := by
  obtain ⟨negative, whole, fraction, hasWhole⟩ := other
  simp only [text, List.append_assoc] at same
  obtain ⟨sameSign, sameBody⟩ := sign_inj hasWhole spelling.whole_ne_nil same
  obtain ⟨more, isWhole, isTail⟩ := exists_more_digits (endsDigits_point ends) sameBody
  cases fraction with
  | none =>
      refine ⟨digits more ++ point spelling.fraction, ?_, fun isNil => ?_⟩
      · simp [text, sameSign, isWhole, digits_append, point]
      · obtain ⟨noDigits, noPoint⟩ := List.append_eq_nil_iff.mp isNil
        obtain rfl : more = [] := List.map_eq_nil_iff.mp noDigits
        exact Spelling.ext sameSign (by rw [isWhole, List.append_nil]) (point_eq_nil noPoint).symm
  | some fraction =>
      cases more with
      | cons digit more =>
          have isPoint : 0x2E = 0x30 + digit.val := (List.cons.inj isTail).1
          omega
      | nil =>
          obtain ⟨others, isFraction⟩ := exists_more_fraction ends isTail
          refine ⟨digits others, ?_, fun isNil => ?_⟩
          · simp [text, sameSign, isWhole, isFraction, digits_append, point]
          · obtain rfl : others = [] := List.map_eq_nil_iff.mp isNil
            exact Spelling.ext sameSign (by rw [isWhole, List.append_nil])
              (by rw [isFraction, List.append_nil])

theorem Ends.longest (ends : spelling.Ends rest) : spelling.Longest (spelling.text ++ rest) := by
  refine ⟨List.prefix_append _ _, fun other isPrefix => ?_⟩
  obtain ⟨tail, same⟩ := isPrefix
  obtain ⟨more, longer, -⟩ := exists_more ends same
  rw [longer, List.length_append]
  exact Nat.le_add_right _ _

/-- There is one longest spelling at most. -/
theorem Ends.eq_of_longest (ends : spelling.Ends rest)
    (longest : other.Longest (spelling.text ++ rest)) : other = spelling := by
  obtain ⟨⟨tail, same⟩, isLongest⟩ := longest
  obtain ⟨more, longer, whole⟩ := exists_more ends same
  have noLonger := isLongest spelling (List.prefix_append _ _)
  rw [longer, List.length_append] at noLonger
  exact whole (List.eq_nil_of_length_eq_zero (by omega))

/-- A text is spelled in one way at most, and only if its longest spelling is all of it. -/
theorem Ends.eq_of_text (ends : spelling.Ends rest) (same : other.text = spelling.text ++ rest) :
    rest = [] ∧ other = spelling := by
  have extended : other.text ++ [] = spelling.text ++ rest := by rw [List.append_nil, same]
  obtain ⟨more, longer, whole⟩ := exists_more ends extended
  have lengths := congrArg List.length same
  rw [longer, List.length_append, List.length_append] at lengths
  have noMore : more = [] := List.eq_nil_of_length_eq_zero (by omega)
  exact ⟨List.eq_nil_of_length_eq_zero (by omega), whole noMore⟩

/-- A reading of a whole text: the number that it spells, or nothing if it spells none. -/
def Reads (line : Text) (reading : Option Number) : Prop :=
  ∀ number, reading = some number ↔ ∃ spelling : Spelling,
    spelling.text = line ∧ spelling.number = number

theorem reads_text (spelling : Spelling) : Reads spelling.text (some spelling.number) := by
  intro number
  constructor
  · rintro ⟨rfl⟩
    exact ⟨spelling, rfl, rfl⟩
  · rintro ⟨other, same, rfl⟩
    rw [← List.append_nil spelling.text] at same
    obtain ⟨-, rfl⟩ := spelling.ends_nil.eq_of_text same
    rfl

theorem reads_none {line : Text} (unspelled : ∀ spelling : Spelling, spelling.text ≠ line) :
    Reads line none := by
  intro number
  constructor
  · nofun
  · rintro ⟨spelling, same, -⟩
    exact absurd same (unspelled spelling)

theorem Reads.unique {line : Text} {first second : Option Number} (isFirst : Reads line first)
    (isSecond : Reads line second) : first = second := by
  apply Option.ext
  intro number
  rw [isFirst, isSecond]

/-- Without a digit after the sign, if there is one, no number is spelled. -/
theorem not_isPrefix {negative : Bool} {body : Text} (endsDigits : EndsDigits body)
    (unsigned : negative = false → body.head? ≠ some 0x2D) (spelling : Spelling) :
    ¬ spelling.text <+: sign negative ++ body := by
  rintro ⟨tail, same⟩
  obtain ⟨spelledNegative, whole, fraction, hasWhole⟩ := spelling
  obtain ⟨first, whole, rfl⟩ := List.exists_cons_of_ne_nil hasWhole
  have noDigit := endsDigits.head?_ne first
  cases spelledNegative with
  | false =>
      cases negative with
      | false => exact noDigit (congrArg List.head? same.symm)
      | true =>
          have isMinus : 0x30 + first.val = 0x2D := (List.cons.inj same).1
          omega
  | true =>
      cases negative with
      | false => exact unsigned rfl (congrArg List.head? same.symm)
      | true => exact noDigit (congrArg List.head? (List.cons.inj same).2.symm)

/-! ## Reading numerals -/

/-- A spelling is made of digits, the minus and the point, which stand close to each other. -/
theorem bounds_of_mem {code : Nat} (member : code ∈ spelling.text) :
    0x2D ≤ code ∧ code ≤ 0x39 := by
  have ofDigits {values : List (Fin 10)} (isDigit : code ∈ digits values) :
      0x2D ≤ code ∧ code ≤ 0x39 := by
    have := Code.isAsciiDigit_iff.mp (isAsciiDigit_of_mem isDigit)
    omega
  simp only [text, List.mem_append] at member
  rcases member with isSign | isDigit | isPoint
  · cases negative : spelling.negative with
    | false => simp [sign, negative] at isSign
    | true => simp [sign, negative] at isSign; omega
  · exact ofDigits isDigit
  · cases isFraction : spelling.fraction with
    | none => simp [point, isFraction] at isPoint
    | some fraction =>
        rw [isFraction] at isPoint
        rcases List.mem_cons.mp isPoint with rfl | isDigit
        · decide
        · exact ofDigits isDigit

theorem takeWhile_digits (endsDigits : EndsDigits rest) :
    (digits values ++ rest).takeWhile Code.isAsciiDigit = digits values := by
  rw [List.takeWhile_append_of_pos fun code member => isAsciiDigit_of_mem member]
  cases rest with
  | nil => simp
  | cons code rest => simp [endsDigits code rfl]

theorem dropWhile_digits (endsDigits : EndsDigits rest) :
    (digits values ++ rest).dropWhile Code.isAsciiDigit = rest := by
  rw [List.dropWhile_append_of_pos fun code member => isAsciiDigit_of_mem member]
  cases rest with
  | nil => rfl
  | cons code rest => simp [endsDigits code rfl]

theorem map_digits (values : List (Fin 10)) :
    (digits values).map (· - 0x30) = values.map Fin.val := by
  simp [digits, Function.comp_def]

theorem isAsciiSpace_of_mem {code : Nat} (member : code ∈ spelling.text) :
    Numeral.isAsciiSpace code = false := by
  have bounds := bounds_of_mem member
  rw [Bool.eq_false_iff, ne_eq, Numeral.isAsciiSpace_iff]
  omega

/-- The readers see a spelling as it is: there is nothing to translate. -/
theorem plain_text (spelling : Spelling) : Numeral.plain spelling.text = spelling.text := by
  have unchanged (code : Nat) (member : code ∈ spelling.text) :
      Numeral.plainCode code = id code := by
    have isAscii : code < 0x7F := Nat.lt_of_le_of_lt (bounds_of_mem member).2 (by decide)
    exact if_pos isAscii
  rw [Numeral.plain, List.map_congr_left unchanged, List.map_id]

theorem dropWhile_space {codes : Text}
    (noSpace : ∀ code ∈ codes, Numeral.isAsciiSpace code = false) :
    codes.dropWhile Numeral.isAsciiSpace = codes := by
  cases codes with
  | nil => rfl
  | cons code codes => simp [noSpace code (List.mem_cons_self ..)]

/-- A sign is told from what has none. -/
theorem takeSign_append {negative : Bool} {body : Text} (minus : body.head? ≠ some 0x2D)
    (plus : body.head? ≠ some 0x2B) :
    Numeral.takeSign (sign negative ++ body) = (negative, body) := by
  cases negative with
  | true => rfl
  | false =>
      show Numeral.takeSign body = (false, body)
      unfold Numeral.takeSign
      split
      · exact absurd rfl minus
      · exact absurd rfl plus
      · rfl

theorem takeSign_eq {negative : Bool} (hasValues : values ≠ []) :
    Numeral.takeSign (sign negative ++ (digits values ++ rest)) =
      (negative, digits values ++ rest) := by
  obtain ⟨value, values, rfl⟩ := List.exists_cons_of_ne_nil hasValues
  have isHead {mark : Nat} (other : mark < 0x30) :
      (digits (value :: values) ++ rest).head? ≠ some mark := by
    intro isMark
    have : 0x30 + value.val = mark := Option.some.inj isMark
    omega
  exact takeSign_append (isHead (by decide)) (isHead (by decide))

theorem ungroup?_digits (afterDigit : Bool) (hasDigits : afterDigit = true ∨ values ≠ []) :
    Numeral.ungroup? afterDigit (digits values) = some (values.map Fin.val) := by
  induction values generalizing afterDigit with
  | nil =>
      rcases hasDigits with rfl | isNil
      · rfl
      · exact absurd rfl isNil
  | cons value values inductionHypothesis =>
      have isDigit : Numeral.isDigit (0x30 + value.val) = true := isAsciiDigit_digit value
      have later := inductionHypothesis true (.inl rfl)
      simp only [digits] at later
      simp [digits, Numeral.ungroup?, isDigit, later]

/-- A spelling without a point is read as its integer, unless it has too many digits. -/
theorem readInteger_text (noFraction : spelling.fraction = none) :
    Numeral.readInteger spelling.text =
      if Numeral.digitLimit < spelling.whole.length then .error (.tooLong spelling.whole.length)
      else .ok spelling.integer := by
  have noSpace : (Numeral.plain spelling.text).dropWhile Numeral.isAsciiSpace = spelling.text := by
    rw [plain_text, dropWhile_space fun code member => isAsciiSpace_of_mem member]
  have isText : spelling.text =
      sign spelling.negative ++ (digits spelling.whole ++ []) := by
    rw [text, noFraction]
    rfl
  have grouped (code : Code) (member : code ∈ digits spelling.whole) :
      (Numeral.isDigit code || decide (code = 0x5F)) = true := by
    rw [Bool.or_eq_true]
    exact .inl (isAsciiDigit_of_mem member)
  simp only [Numeral.readInteger, noSpace]
  rw [isText, takeSign_eq spelling.whole_ne_nil, List.append_nil]
  simp only [List.takeWhile_eq_self_iff.mpr grouped, List.dropWhile_eq_nil_iff.mpr grouped,
    ungroup?_digits false (.inr spelling.whole_ne_nil), List.length_map, List.all_nil, if_true]
  rfl

theorem word?_digits {negative : Bool} (hasValues : values ≠ []) :
    Numeral.word? negative (digits values ++ rest) = none := by
  obtain ⟨first, values, rfl⟩ := List.exists_cons_of_ne_nil hasValues
  exact Numeral.word?_of_digit (List.mem_cons_self ..) (isAsciiDigit_digit first)

theorem dropMarks?_eq_self (afterDigit : Bool) {codes : Text} (noMark : 0x5F ∉ codes) :
    Numeral.dropMarks? afterDigit false codes = some codes := by
  induction codes generalizing afterDigit with
  | nil => rfl
  | cons code codes inductionHypothesis =>
      have isOther : code ≠ 0x5F := fun isMark => noMark (isMark ▸ List.mem_cons_self ..)
      have later := inductionHypothesis (Numeral.isDigit code)
        fun member => noMark (List.mem_cons_of_mem code member)
      simp [Numeral.dropMarks?, isOther, later]

theorem real?_text {fraction : List (Fin 10)} (hasFraction : spelling.fraction = some fraction) :
    Numeral.real? spelling.text = some (spelling.real fraction) := by
  have endsDigits : EndsDigits (point (some fraction)) := by
    rw [← List.append_nil (point (some fraction))]
    exact endsDigits_some fraction []
  have isText : spelling.text =
      sign spelling.negative ++ (digits spelling.whole ++ point (some fraction)) := by
    rw [text, hasFraction]
  have taken := @takeWhile_digits spelling.whole _ endsDigits
  have dropped := @dropWhile_digits spelling.whole _ endsDigits
  have inFraction := @takeWhile_digits fraction [] nofun
  have afterFraction := @dropWhile_digits fraction [] nofun
  rw [List.append_nil] at inFraction afterFraction
  have divided : Numeral.takeFraction (point (some fraction)) = (digits fraction, []) :=
    Prod.ext inFraction afterFraction
  have hasDigits : (digits (spelling.whole ++ fraction)).isEmpty = false := by
    simp [digits, spelling.whole_ne_nil]
  rw [isText, Numeral.real?]
  simp only [takeSign_eq spelling.whole_ne_nil, word?_digits spelling.whole_ne_nil]
  rw [show Numeral.isDigit = Code.isAsciiDigit from rfl, taken, dropped, divided]
  simp only [← digits_append, hasDigits, map_digits, Numeral.exponent?]
  simp [real, value]

theorem integer_nonneg (unsigned : spelling.negative = false) : 0 ≤ spelling.integer := by
  simp [integer, unsigned]

/-- Without a minus the integer is not negative, so both kinds pass the check. -/
theorem checked_integer (spelling : Spelling) :
    Number.checked (if spelling.negative then .integer else .uint) (.whole spelling.integer) =
      .ok ⟨if spelling.negative then .integer else .uint, .whole spelling.integer⟩ :=
  checked_whole_iff.mpr ⟨integer_nonneg, rfl⟩

/-- An integer with more digits than are read. -/
def TooLong (spelling : Spelling) : Prop :=
  spelling.fraction = none ∧ Numeral.digitLimit < spelling.whole.length

theorem Longest.not_tooLong {line : Text} (longest : spelling.Longest line)
    (few : line.length ≤ Numeral.digitLimit) : ¬ spelling.TooLong := by
  rintro ⟨-, isLong⟩
  have within := longest.1.length_le
  simp only [text, List.length_append, length_digits] at within
  omega

/-- A spelling with a point is read as its floating-point number. -/
theorem readReal_text {fraction : List (Fin 10)} (hasFraction : spelling.fraction = some fraction) :
    Numeral.readReal spelling.text = some (spelling.real fraction) := by
  have noMark : 0x5F ∉ spelling.text := fun member => by
    have := bounds_of_mem member
    omega
  have noSpace (code : Code) (member : code ∈ spelling.text) :
      Numeral.isAsciiSpace code = false := isAsciiSpace_of_mem member
  have noSpaceBehind (code : Code) (member : code ∈ spelling.text.reverse) :
      Numeral.isAsciiSpace code = false := noSpace code (List.mem_reverse.mp member)
  rw [Numeral.readReal, plain_text, dropWhile_space noSpace, dropWhile_space noSpaceBehind,
    List.reverse_reverse, dropMarks?_eq_self false noMark, Option.bind_some,
    real?_text hasFraction]

end Spelling

end Number

end RecordScan
