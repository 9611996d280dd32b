import RecordScan.Proofs.Grammar.Spelling

/-!
Contract: what numerals say, against what they spell.

Owns: the readers of numerals run backwards. An integer numeral is a spelling with white
space, underscores or a plus between its characters (`Numeral.readInteger_eq_ok`), and so
is a floating-point numeral that has neither an exponent nor a word
(`Numeral.readReal_eq_some`). Hence one further character, wherever it stands in a
spelling, leaves its value as it is or makes the text no numeral, unless it is a digit, a
minus or the letter of an exponent (`Spelling.readAs_of_shown`).

Does not own: what the readers answer on spellings themselves
(`RecordScan.Proofs.Grammar.Spelling`).
-/

namespace RecordScan

open Number (Spelling)

namespace Numeral

variable {text codes body : Text} {code : Code}

/-! ## Characters -/

/-- A character of spellings. -/
def isSpelled (code : Code) : Bool :=
  isDigit code || code = 0x2D || code = 0x2E

/-- A character with which a numeral may say something else: a digit, the minus, or the letter
before an exponent. -/
def Bears (code : Code) : Prop :=
  isDigit code = true ∨ code = 0x2D ∨ lowerCode code = 0x65

instance : DecidablePred Bears :=
  fun _ => inferInstanceAs (Decidable (_ ∨ _ ∨ _))

theorem isSpelled_iff {code : Nat} :
    isSpelled code = true ↔ 0x30 ≤ code ∧ code ≤ 0x39 ∨ code = 0x2D ∨ code = 0x2E := by
  simp [isSpelled, isDigit, or_assoc]

theorem not_isSpelled_of_space {code : Nat} (isSpace : isAsciiSpace code = true) :
    ¬ isSpelled code = true := by
  rw [isAsciiSpace_iff] at isSpace
  rw [isSpelled_iff]
  omega

/-- In ASCII only the last character is translated, to one that stands in no numeral. -/
theorem plainCode_of_ascii {code : Nat} (ascii : code < 0x80) :
    plainCode code = code ∨ code = 0x7F ∧ plainCode code = 0x3F := by
  rcases Nat.lt_or_eq_of_le (Nat.le_of_lt_succ ascii) with isPlain | rfl
  · exact .inl (if_pos isPlain)
  · exact .inr ⟨rfl, rfl⟩

theorem filter_plain (ascii : ∀ code ∈ text, (code : Nat) < 0x80) :
    (plain text).filter isSpelled = text.filter isSpelled := by
  induction text with
  | nil => rfl
  | cons code text inductionHypothesis =>
      have later := inductionHypothesis
        fun other member => ascii other (List.mem_cons_of_mem _ member)
      rw [plain] at later ⊢
      rw [List.map_cons, List.filter_cons, List.filter_cons, later]
      rcases plainCode_of_ascii (ascii code (List.mem_cons_self ..)) with same | ⟨rfl, other⟩
      · rw [same]
      · rw [other]
        rfl

theorem mem_of_mem_plain (ascii : ∀ code ∈ text, (code : Nat) < 0x80) (member : code ∈ plain text) :
    code ∈ text ∨ code = 0x3F := by
  obtain ⟨before, inText, rfl⟩ := List.mem_map.mp member
  rcases plainCode_of_ascii (ascii before inText) with same | ⟨-, other⟩
  · rw [same]
    exact .inl inText
  · exact .inr other

theorem filter_spaces (spaces : ∀ code ∈ codes, isAsciiSpace code = true) :
    codes.filter isSpelled = [] :=
  List.filter_eq_nil_iff.mpr fun code member => not_isSpelled_of_space (spaces code member)

theorem filter_dropWhile_space (codes : Text) :
    (codes.dropWhile isAsciiSpace).filter isSpelled = codes.filter isSpelled := by
  have spaces : (codes.takeWhile isAsciiSpace).filter isSpelled = [] :=
    filter_spaces fun code member => List.mem_takeWhile_imp member
  have parts := congrArg (List.filter isSpelled)
    (@List.takeWhile_append_dropWhile _ isAsciiSpace codes)
  rwa [List.filter_append, spaces, List.nil_append] at parts

/-! ## Signs -/

/-- A text begins with its sign or with a plus, which is not spelled. -/
theorem exists_takeSign (text : Text) :
    ∃ mark, text = mark ++ (takeSign text).2 ∧
      mark.filter isSpelled = Spelling.sign (takeSign text).1 := by
  unfold takeSign
  split
  · exact ⟨[0x2D], rfl, rfl⟩
  · exact ⟨[0x2B], rfl, rfl⟩
  · exact ⟨[], rfl, rfl⟩

theorem eq_of_mem_sign {negative : Bool} (member : code ∈ Spelling.sign negative) :
    code = 0x2D := by
  cases negative with
  | false => cases member
  | true => exact List.mem_singleton.mp member

/-! ## Integers -/

/-- What underscores separate is digits, at least one of them. -/
theorem ungroup?_eq_some {afterDigit : Bool} {values : List Nat}
    (read : ungroup? afterDigit codes = some values) :
    ∃ digits : List (Fin 10), codes.filter isSpelled = Spelling.digits digits ∧
      values = digits.map Fin.val ∧ (afterDigit = false → digits ≠ []) := by
  induction codes generalizing afterDigit values with
  | nil =>
      rw [ungroup?] at read
      split at read
      · next after =>
          cases read
          exact ⟨[], rfl, rfl, fun notAfter => absurd (after.symm.trans notAfter) (by decide)⟩
      · cases read
  | cons code codes inductionHypothesis =>
      rw [ungroup?] at read
      split at read
      · next isDigit =>
          obtain ⟨later, readLater, rfl⟩ := Option.map_eq_some_iff.mp read
          obtain ⟨digits, isSpelling, rfl, -⟩ := inductionHypothesis readLater
          obtain ⟨digit, rfl⟩ := Code.exists_digit isDigit
          refine ⟨digit :: digits, ?_, ?_, fun _ => List.cons_ne_nil _ _⟩
          · have spelled : isSpelled (0x30 + digit.val) = true := by simp [isSpelled, isDigit]
            rw [List.filter_cons_of_pos spelled, isSpelling]
            rfl
          · rw [List.map_cons, Nat.add_sub_cancel_left]
      · split at read
        · next isMark =>
            rw [Bool.and_eq_true, decide_eq_true_eq] at isMark
            obtain ⟨digits, isSpelling, isValue, hasDigits⟩ := inductionHypothesis read
            refine ⟨digits, ?_, isValue, fun _ => hasDigits rfl⟩
            rw [isMark.1, List.filter_cons_of_neg (by decide), isSpelling]
        · cases read

/-- **An integer numeral is a spelling of its value**, of no more digits than are allowed, with
characters between that are not spelled. -/
theorem readInteger_eq_ok {value : Int} (ascii : ∀ code ∈ text, (code : Nat) < 0x80)
    (read : readInteger text = .ok value) :
    ∃ spelling : Spelling, spelling.fraction = none ∧ ¬ spelling.TooLong ∧
      spelling.integer = value ∧ text.filter isSpelled = spelling.text := by
  -- The text is white space, a sign, digits with underscores between, and white space again.
  let signed := (plain text).dropWhile isAsciiSpace
  obtain ⟨mark, isSigned, isSign⟩ := exists_takeSign signed
  rw [readInteger] at read
  dsimp only at read
  split at read
  · cases read
  · next values isGrouped =>
      obtain ⟨digits, areDigits, rfl, hasDigits⟩ := ungroup?_eq_some isGrouped
      split at read
      · cases read
      · next few =>
          split at read
          · next areSpaces =>
              cases read
              rw [List.length_map] at few
              refine ⟨⟨(takeSign signed).1, digits, none, hasDigits rfl⟩, rfl,
                fun isLong => few isLong.2, rfl, ?_⟩
              have spaces := filter_spaces (List.all_eq_true.mp areSpaces)
              have isBody := @List.takeWhile_append_dropWhile _
                (fun code : Code => isDigit code || decide (code = 0x5F)) (takeSign signed).2
              rw [← filter_plain ascii, ← filter_dropWhile_space]
              calc signed.filter isSpelled
                  = mark.filter isSpelled ++ (takeSign signed).2.filter isSpelled := by
                    rw [← List.filter_append, ← isSigned]
                _ = Spelling.sign (takeSign signed).1 ++ (Spelling.digits digits ++ []) := by
                    rw [isSign, ← isBody, List.filter_append, areDigits, spaces]
          · cases read

/-! ## Floating-point numbers -/

theorem dropMarks?_eq_some {afterDigit afterMark : Bool} {left : Text}
    (dropped : dropMarks? afterDigit afterMark codes = some left) :
    left = codes.filter (· != 0x5F) := by
  induction codes generalizing afterDigit afterMark left with
  | nil =>
      rw [dropMarks?] at dropped
      split at dropped
      · cases dropped
      · cases dropped
        rfl
  | cons code codes inductionHypothesis =>
      rw [dropMarks?] at dropped
      split at dropped
      · next isMark =>
          split at dropped
          · rw [inductionHypothesis dropped, isMark]
            rfl
          · cases dropped
      · next isOther =>
          split at dropped
          · cases dropped
          · obtain ⟨later, droppedLater, rfl⟩ := Option.map_eq_some_iff.mp dropped
            have kept : (code != 0x5F) = true := bne_iff_ne.mpr isOther
            rw [inductionHypothesis droppedLater, List.filter_cons, if_pos kept]

/-- Behind the digits there is an exponent or nothing. -/
theorem eq_nil_of_exponent? {exponent : Int} (read : exponent? codes = some exponent)
    (noExponent : ∀ code ∈ codes, lowerCode code ≠ 0x65) : codes = [] := by
  cases codes with
  | nil => rfl
  | cons code codes =>
      rw [exponent?, if_neg (noExponent code (List.mem_cons_self ..))] at read
      cases read

theorem takeFraction_append (codes : Text) :
    ∃ point, codes = point ++ ((takeFraction codes).1 ++ (takeFraction codes).2) ∧
      (point = [] ∨ point = [0x2E]) ∧ ∀ code ∈ (takeFraction codes).1, isDigit code = true := by
  unfold takeFraction
  split
  · next rest =>
      refine ⟨[0x2E], ?_, .inr rfl, fun code member => List.mem_takeWhile_imp member⟩
      rw [List.takeWhile_append_dropWhile]
      rfl
  · exact ⟨[], rfl, .inl rfl, nofun⟩

/-- Without a word and an exponent there are digits behind the sign, and a point at most. -/
theorem unsigned_of_real? {number : Binary64} (read : real? text = some number)
    (noWord : word? (takeSign text).1 (takeSign text).2 = none)
    (noExponent : ∀ code ∈ text, lowerCode code ≠ 0x65) :
    ∀ code ∈ (takeSign text).2, isDigit code = true ∨ code = 0x2E := by
  obtain ⟨mark, isText, -⟩ := exists_takeSign text
  let body := (takeSign text).2
  obtain ⟨point, isFraction, isPoint, areDigits⟩ := takeFraction_append (body.dropWhile isDigit)
  have isBody : body = body.takeWhile isDigit ++ body.dropWhile isDigit :=
    List.takeWhile_append_dropWhile.symm
  rw [real?] at read
  dsimp only at read
  rw [noWord] at read
  dsimp only at read
  split at read
  · cases read
  · obtain ⟨exponent, isExponent, -⟩ := Option.map_eq_some_iff.mp read
    have ended : (takeFraction (body.dropWhile isDigit)).2 = [] := by
      refine eq_nil_of_exponent? isExponent fun code member => noExponent code ?_
      rw [isText]
      apply List.mem_append_right
      show code ∈ body
      rw [isBody, isFraction]
      exact List.mem_append_right _ (List.mem_append_right _ (List.mem_append_right _ member))
    rw [ended, List.append_nil] at isFraction
    intro code member
    replace member : code ∈ body := member
    rw [isBody, isFraction, List.mem_append, List.mem_append] at member
    rcases member with inWhole | inPoint | inFraction
    · exact .inl (List.mem_takeWhile_imp inWhole)
    · rcases isPoint with rfl | rfl
      · cases inPoint
      · exact .inr (List.mem_singleton.mp inPoint)
    · exact .inl (areDigits code inFraction)

/-- Only the spelled characters of such a numeral count. -/
theorem real?_filter {number : Binary64} (read : real? text = some number)
    (noExponent : ∀ code ∈ text, lowerCode code ≠ 0x65)
    (hasDigit : ∃ code ∈ text.filter isSpelled, isDigit code = true) :
    real? (text.filter isSpelled) = some number := by
  obtain ⟨mark, isText, isSign⟩ := exists_takeSign text
  have noWord : word? (takeSign text).1 (takeSign text).2 = none := by
    obtain ⟨code, member, digit⟩ := hasDigit
    rw [isText, List.filter_append, isSign, List.mem_append] at member
    rcases member with inSign | inBody
    · rw [eq_of_mem_sign inSign] at digit
      cases digit
    · exact word?_of_digit (List.mem_filter.mp inBody).1 digit
  have unsigned := unsigned_of_real? read noWord noExponent
  have allSpelled : (takeSign text).2.filter isSpelled = (takeSign text).2 := by
    refine List.filter_eq_self.mpr fun code member => ?_
    rcases unsigned code member with digit | rfl
    · simp [isSpelled, digit]
    · rfl
  have same : takeSign (text.filter isSpelled) = takeSign text := by
    have parts : text.filter isSpelled = Spelling.sign (takeSign text).1 ++ (takeSign text).2 := by
      rw [← isSign, ← allSpelled, ← List.filter_append, ← isText]
    have noSign {mark : Code} (isMark : ¬ (isDigit mark = true ∨ mark = 0x2E)) :
        (takeSign text).2.head? ≠ some mark :=
      fun isHead => isMark (unsigned mark (List.mem_of_head? isHead))
    rw [parts, Spelling.takeSign_append (noSign (by decide)) (noSign (by decide))]
  unfold real? at read ⊢
  rwa [same]

/-- **A floating-point numeral without a word and an exponent is its spelled characters**, with
others between. -/
theorem readReal_eq_some {number : Binary64} (ascii : ∀ code ∈ text, (code : Nat) < 0x80)
    (read : readReal text = some number) (noExponent : ∀ code ∈ text, lowerCode code ≠ 0x65)
    (hasDigit : ∃ code ∈ text.filter isSpelled, isDigit code = true) :
    real? (text.filter isSpelled) = some number := by
  let inner := ((plain text).dropWhile isAsciiSpace).reverse
  obtain ⟨left, dropped, readLeft⟩ := Option.bind_eq_some_iff.mp read
  have isLeft : left = (inner.dropWhile isAsciiSpace).reverse.filter (· != 0x5F) :=
    dropMarks?_eq_some dropped
  have spelled : left.filter isSpelled = text.filter isSpelled := by
    have noMark (code : Code) : (isSpelled code && code != 0x5F) = isSpelled code := by
      by_cases isMark : code = 0x5F
      · rw [isMark]
        rfl
      · rw [bne_iff_ne.mpr isMark, Bool.and_true]
    rw [isLeft, List.filter_filter, funext noMark, List.filter_reverse, filter_dropWhile_space,
      ← List.filter_reverse, List.reverse_reverse, filter_dropWhile_space, filter_plain ascii]
  have noExponentLeft (code : Code) (member : code ∈ left) : lowerCode code ≠ 0x65 := by
    rw [isLeft] at member
    have inStripped := List.mem_reverse.mp (List.mem_filter.mp member).1
    have inInner := List.mem_reverse.mp ((List.dropWhile_sublist _).subset inStripped)
    rcases mem_of_mem_plain ascii ((List.dropWhile_sublist _).subset inInner) with inText | rfl
    · exact noExponent code inText
    · decide
  rw [← spelled] at hasDigit ⊢
  exact real?_filter readLeft noExponentLeft hasDigit

end Numeral

namespace Number.Spelling

variable {spelling : Spelling} {text : Text} {code ignored : Code}

/-! ## Characters between -/

/-- A spelling is made of digits, the minus and, if it has digits after it, the point. -/
theorem isDigit_of_mem (member : code ∈ spelling.text) :
    Numeral.isDigit code = true ∨ code = 0x2D ∨ code = 0x2E ∧ spelling.fraction ≠ none := by
  simp only [Spelling.text, List.mem_append] at member
  rcases member with inSign | inWhole | inPoint
  · exact .inr (.inl (Numeral.eq_of_mem_sign inSign))
  · exact .inl (isAsciiDigit_of_mem inWhole)
  · cases isFraction : spelling.fraction with
    | none =>
        rw [isFraction] at inPoint
        cases inPoint
    | some fraction =>
        rw [isFraction] at inPoint
        rcases List.mem_cons.mp inPoint with isPoint | inFraction
        · exact .inr (.inr ⟨isPoint, Option.some_ne_none fraction⟩)
        · exact .inl (isAsciiDigit_of_mem inFraction)

theorem isSpelled_of_mem (member : code ∈ spelling.text) : Numeral.isSpelled code = true := by
  rcases isDigit_of_mem member with digit | rfl | ⟨rfl, -⟩
  · simp [Numeral.isSpelled, digit]
  · rfl
  · rfl

theorem exists_digit_mem (spelling : Spelling) :
    ∃ code ∈ spelling.text, Numeral.isDigit code = true := by
  obtain ⟨digit, rest, isWhole⟩ := List.exists_cons_of_ne_nil spelling.whole_ne_nil
  refine ⟨0x30 + digit.val, ?_, isAsciiDigit_digit digit⟩
  simp [Spelling.text, isWhole, digits]

/-- The number that is made of a text where this is spelled: without a point an integer numeral,
which must not be negative if it is spelled without a minus, else a floating-point numeral. -/
def readAs (spelling : Spelling) (text : Text) : Option Number :=
  match spelling.fraction with
  | none =>
      match Numeral.readInteger text with
      | .ok value =>
          if spelling.negative then some ⟨.integer, .whole value⟩
          else if value < 0 then none
          else some ⟨.uint, .whole value⟩
      | .error _ => none
  | some _ => (Numeral.readReal text).map fun value => ⟨.float, .real value⟩

theorem readAs_whole {number : Number} (noFraction : spelling.fraction = none) :
    spelling.readAs text = some number ↔
      ∃ value, Numeral.readInteger text = .ok value ∧ (spelling.negative = false → 0 ≤ value) ∧
        ⟨if spelling.negative then .integer else .uint, .whole value⟩ = number := by
  rw [readAs, noFraction]
  cases Numeral.readInteger text with
  | error refusal => simp
  | ok value =>
      cases spelling.negative with
      | true => simp
      | false =>
          by_cases isNegative : value < 0
          · simp [isNegative, Int.not_le.mpr isNegative]
          · simp [isNegative, Int.not_lt.mp isNegative]

theorem readAs_pointed {number : Number} {fraction : List (Fin 10)}
    (hasFraction : spelling.fraction = some fraction) :
    spelling.readAs text = some number ↔
      ∃ value, Numeral.readReal text = some value ∧ ⟨.float, .real value⟩ = number := by
  rw [readAs, hasFraction]
  exact Option.map_eq_some_iff

/-- Of its own text a spelling is made the number that it writes, unless it is too long. -/
theorem readAs_text {number : Number} :
    spelling.readAs spelling.text = some number ↔
      ¬ spelling.TooLong ∧ spelling.number = number := by
  cases isFraction : spelling.fraction with
  | none =>
      rw [readAs_whole isFraction, readInteger_text isFraction, TooLong, Spelling.number,
        isFraction]
      by_cases isLong : Numeral.digitLimit < spelling.whole.length
      · simp [isLong]
      · have unsigned := @integer_nonneg spelling
        simpa [isLong] using fun _ => unsigned
  | some fraction =>
      rw [readAs_pointed isFraction, readReal_text isFraction, TooLong, Spelling.number,
        isFraction]
      simp

section Between

-- One character, again and again, between those of a spelling.
variable (shown : text.filter (· != ignored) = spelling.text)
  (ascii : ∀ code ∈ text, (code : Nat) < 0x80) (bearsNot : ¬ Numeral.Bears ignored)

include shown

theorem mem_of_shown (member : code ∈ text) : code = ignored ∨ code ∈ spelling.text := by
  by_cases isIgnored : code = ignored
  · exact .inl isIgnored
  · rw [← shown]
    exact .inr (List.mem_filter.mpr ⟨member, bne_iff_ne.mpr isIgnored⟩)

theorem filter_of_shown :
    (text.filter Numeral.isSpelled).filter (· != ignored) = spelling.text := by
  rw [List.filter_filter, ← shown]
  apply List.filter_congr
  intro code member
  rcases mem_of_shown shown member with rfl | inText
  · rw [bne_self_eq_false, Bool.false_and]
  · rw [isSpelled_of_mem inText, Bool.and_true]

include ascii bearsNot

/-- An integer numeral has only digits and the minus that are spelled, so the character is not
among these. -/
theorem readInteger_of_shown {value : Int} (read : Numeral.readInteger text = .ok value) :
    ¬ spelling.TooLong ∧ spelling.integer = value := by
  obtain ⟨other, noFraction, short, rfl, isText⟩ := Numeral.readInteger_eq_ok ascii read
  have others (code : Code) (member : code ∈ other.text) : (code != ignored) = true := by
    rw [bne_iff_ne]
    rintro rfl
    rcases isDigit_of_mem member with digit | isMinus | ⟨-, hasFraction⟩
    · exact bearsNot (.inl digit)
    · exact bearsNot (.inr (.inl isMinus))
    · exact hasFraction noFraction
  have isSpelling := filter_of_shown shown
  rw [isText, List.filter_eq_self.mpr others, ← List.append_nil spelling.text] at isSpelling
  obtain ⟨-, rfl⟩ := spelling.ends_nil.eq_of_text isSpelling
  exact ⟨short, rfl⟩

/-- A spelled point is not the character between. -/
theorem readReal_of_shown {fraction : List (Fin 10)} {value : Binary64}
    (hasFraction : spelling.fraction = some fraction) (read : Numeral.readReal text = some value) :
    spelling.real fraction = value := by
  have notSpelled : ¬ Numeral.isSpelled ignored = true := by
    intro isCode
    simp only [Numeral.isSpelled, Bool.or_eq_true, decide_eq_true_eq] at isCode
    rcases isCode with (digit | isMinus) | rfl
    · exact bearsNot (.inl digit)
    · exact bearsNot (.inr (.inl isMinus))
    · have hasPoint : 0x2E ∈ spelling.text := by simp [Spelling.text, hasFraction, point]
      rw [← shown] at hasPoint
      exact absurd (List.mem_filter.mp hasPoint).2 (by decide)
  have isSpelling : text.filter Numeral.isSpelled = spelling.text := by
    rw [← filter_of_shown shown]
    refine (List.filter_eq_self.mpr fun code member => bne_iff_ne.mpr ?_).symm
    rintro rfl
    exact notSpelled (List.mem_filter.mp member).2
  have noExponent (code : Code) (member : code ∈ text) : Numeral.lowerCode code ≠ 0x65 := by
    rcases mem_of_shown shown member with rfl | inText
    · exact fun isLetter => bearsNot (.inr (.inr isLetter))
    · have low := (bounds_of_mem inText).2
      rw [Numeral.lowerCode_of_le low]
      exact Nat.ne_of_lt (Nat.lt_of_le_of_lt low (by decide))
  have isReal := Numeral.readReal_eq_some ascii read noExponent
    (isSpelling ▸ spelling.exists_digit_mem)
  rw [isSpelling, real?_text hasFraction] at isReal
  exact Option.some.inj isReal

/-- **A character between those of a spelling leaves its number as it is**, or makes the text no
numeral, unless it is a digit, the minus or the letter of an exponent. -/
theorem readAs_of_shown {number : Number} (read : spelling.readAs text = some number) :
    spelling.readAs spelling.text = some number := by
  rw [readAs_text]
  cases isFraction : spelling.fraction with
  | none =>
      obtain ⟨value, isValue, -, rfl⟩ := (readAs_whole isFraction).mp read
      obtain ⟨short, rfl⟩ := readInteger_of_shown shown ascii bearsNot isValue
      refine ⟨short, ?_⟩
      rw [Spelling.number, isFraction]
  | some fraction =>
      obtain ⟨value, isValue, rfl⟩ := (readAs_pointed isFraction).mp read
      obtain rfl := readReal_of_shown shown ascii bearsNot isFraction isValue
      refine ⟨fun tooLong => ?_, ?_⟩
      · rw [tooLong.1] at isFraction
        cases isFraction
      · rw [Spelling.number, isFraction]

end Between

end Number.Spelling

end RecordScan
