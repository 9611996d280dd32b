import Mathlib.Computability.RegularExpressions
import Mathlib.Data.Nat.Digits.Defs
import RecordScan.Proofs.Grammar.Number
import RecordScan.Proofs.Scan.RoundTrip

/-!
Contract: numbers are the longest matches of a regular expression.

Owns: the regular expression of numbers (`Number.form`), whose language is the texts of
the spellings (`Number.mem_form_iff`); its longest matches at the beginning of a text;
the law that reading a number at a position is such a match, with what is made of it;
and which texts are read as a number, and how the others are refused.

Does not own: numbers seen through an ignoring layer
(`RecordScan.Proofs.Grammar.Skipping`).
-/

namespace RecordScan

namespace Number

/-! ## The regular expression -/

def digitForm : RegularExpression Code :=
  ((List.finRange 10).map fun digit => RegularExpression.char (0x30 + digit.val)).sum

/-- How numbers are written: `-?[0-9]+(\.[0-9]*)?`, with ASCII digits. -/
def form : RegularExpression Code :=
  (1 + .char 0x2D) * (digitForm * .star digitForm) * (1 + .char 0x2E * .star digitForm)

theorem mem_char_iff {text : Text} (code : Code) :
    text ∈ (RegularExpression.char code).matches' ↔ text = [code] :=
  Iff.rfl

theorem mem_sum_iff {text : Text} (forms : List (RegularExpression Code)) :
    text ∈ forms.sum.matches' ↔ ∃ form ∈ forms, text ∈ form.matches' := by
  induction forms with
  | nil => simp
  | cons form forms inductionHypothesis =>
      rw [List.sum_cons, RegularExpression.matches'_add, Language.mem_add, inductionHypothesis]
      simp

theorem mem_digitForm_iff {text : Text} :
    text ∈ digitForm.matches' ↔ ∃ digit, text = Spelling.digits [digit] := by
  rw [digitForm, mem_sum_iff]
  simp [Spelling.digits, mem_char_iff, -RegularExpression.matches']

theorem mem_star_digitForm_iff {text : Text} :
    text ∈ (RegularExpression.star digitForm).matches' ↔
      ∃ values, text = Spelling.digits values := by
  rw [RegularExpression.matches'_star, Language.mem_kstar]
  constructor
  · rintro ⟨parts, rfl, areDigits⟩
    induction parts with
    | nil => exact ⟨[], rfl⟩
    | cons part parts inductionHypothesis =>
        obtain ⟨digit, rfl⟩ := mem_digitForm_iff.mp (areDigits part (List.mem_cons_self ..))
        obtain ⟨values, later⟩ :=
          inductionHypothesis fun other member => areDigits other (List.mem_cons_of_mem _ member)
        exact ⟨digit :: values, by rw [List.flatten_cons, later]; rfl⟩
  · rintro ⟨values, rfl⟩
    refine ⟨values.map fun digit => Spelling.digits [digit], ?_, ?_⟩
    · induction values with
      | nil => rfl
      | cons digit values inductionHypothesis =>
          rw [List.map_cons, List.flatten_cons, ← inductionHypothesis]
          rfl
    · intro part member
      obtain ⟨digit, -, rfl⟩ := List.mem_map.mp member
      exact mem_digitForm_iff.mpr ⟨digit, rfl⟩

theorem mem_sign_iff {text : Text} :
    text ∈ ((1 : RegularExpression Code) + .char 0x2D).matches' ↔
      ∃ negative, text = Spelling.sign negative := by
  rw [RegularExpression.matches'_add, Language.mem_add, mem_char_iff]
  simp [Spelling.sign]

theorem mem_whole_iff {text : Text} :
    text ∈ (digitForm * .star digitForm).matches' ↔
      ∃ values, values ≠ [] ∧ text = Spelling.digits values := by
  rw [RegularExpression.matches'_mul, Language.mem_mul]
  constructor
  · rintro ⟨first, isFirst, others, areOthers, rfl⟩
    obtain ⟨digit, rfl⟩ := mem_digitForm_iff.mp isFirst
    obtain ⟨values, rfl⟩ := mem_star_digitForm_iff.mp areOthers
    exact ⟨digit :: values, List.cons_ne_nil _ _, rfl⟩
  · rintro ⟨values, hasValues, rfl⟩
    obtain ⟨digit, values, rfl⟩ := List.exists_cons_of_ne_nil hasValues
    exact ⟨_, mem_digitForm_iff.mpr ⟨digit, rfl⟩, _, mem_star_digitForm_iff.mpr ⟨values, rfl⟩, rfl⟩

theorem mem_point_iff {text : Text} :
    text ∈ ((1 : RegularExpression Code) + .char 0x2E * .star digitForm).matches' ↔
      ∃ fraction, text = Spelling.point fraction := by
  rw [RegularExpression.matches'_add, Language.mem_add, RegularExpression.matches'_mul,
    Language.mem_mul]
  constructor
  · rintro (isNil | ⟨point, rfl, digits, areDigits, rfl⟩)
    · exact ⟨none, isNil⟩
    · obtain ⟨values, rfl⟩ := mem_star_digitForm_iff.mp areDigits
      exact ⟨some values, rfl⟩
  · rintro ⟨fraction, rfl⟩
    cases fraction with
    | none => exact .inl rfl
    | some values => exact .inr ⟨_, rfl, _, mem_star_digitForm_iff.mpr ⟨values, rfl⟩, rfl⟩

/-- The language of numbers is the texts of the spellings. -/
theorem mem_form_iff {text : Text} :
    text ∈ form.matches' ↔ ∃ spelling : Spelling, spelling.text = text := by
  rw [form, RegularExpression.matches'_mul, Language.mem_mul]
  constructor
  · rintro ⟨front, isFront, back, isBack, rfl⟩
    rw [RegularExpression.matches'_mul, Language.mem_mul] at isFront
    obtain ⟨sign, isSign, whole, isWhole, rfl⟩ := isFront
    obtain ⟨negative, rfl⟩ := mem_sign_iff.mp isSign
    obtain ⟨values, hasValues, rfl⟩ := mem_whole_iff.mp isWhole
    obtain ⟨fraction, rfl⟩ := mem_point_iff.mp isBack
    exact ⟨⟨negative, values, fraction, hasValues⟩, (List.append_assoc _ _ _).symm⟩
  · rintro ⟨spelling, rfl⟩
    have isFront : Spelling.sign spelling.negative ++ Spelling.digits spelling.whole ∈
        ((1 + .char 0x2D) * (digitForm * .star digitForm) : RegularExpression Code).matches' := by
      rw [RegularExpression.matches'_mul, Language.mem_mul]
      exact ⟨_, mem_sign_iff.mpr ⟨_, rfl⟩, _,
        mem_whole_iff.mpr ⟨_, spelling.whole_ne_nil, rfl⟩, rfl⟩
    exact ⟨_, isFront, _, mem_point_iff.mpr ⟨_, rfl⟩, List.append_assoc _ _ _⟩

/-! ## Longest matches -/

/-- A text of the form is the longest one at the beginning of another text. -/
def LongestMatch (found text : Text) : Prop :=
  found ∈ form.matches' ∧ found <+: text ∧
    ∀ other ∈ form.matches', other <+: text → other.length ≤ found.length

theorem longestMatch_text_iff {spelling : Spelling} {text : Text} :
    LongestMatch spelling.text text ↔ spelling.Longest text := by
  constructor
  · rintro ⟨-, isPrefix, longest⟩
    exact ⟨isPrefix, fun other => longest other.text (mem_form_iff.mpr ⟨other, rfl⟩)⟩
  · rintro ⟨isPrefix, longest⟩
    refine ⟨mem_form_iff.mpr ⟨spelling, rfl⟩, isPrefix, ?_⟩
    intro text matched
    obtain ⟨other, rfl⟩ := mem_form_iff.mp matched
    exact longest other

theorem LongestMatch.exists_spelling {found text : Text} (longest : LongestMatch found text) :
    ∃ spelling : Spelling, spelling.text = found ∧ spelling.Longest text := by
  obtain ⟨spelling, rfl⟩ := mem_form_iff.mp longest.1
  exact ⟨spelling, rfl, longestMatch_text_iff.mp longest⟩

/-! ## Values -/

namespace Spelling

variable {spelling : Spelling}

/-- The digits of a spelling are those of its number in base ten, the first one being the
highest. -/
theorem value_eq_ofDigits (values : List (Fin 10)) :
    value values = Nat.ofDigits 10 (values.map Fin.val).reverse := by
  rw [value, Numeral.digitsValue, Nat.ofDigits_eq_foldr, List.foldr_reverse]
  congr 1
  funext number digit
  rw [Nat.add_comm, Nat.mul_comm]
  rfl

theorem integer_eq_ofDigits (spelling : Spelling) :
    spelling.integer = (if spelling.negative then -1 else 1) *
      (Nat.ofDigits 10 (spelling.whole.map Fin.val).reverse : Nat) := by
  rw [integer, value_eq_ofDigits]
  split
  · rw [Int.neg_one_mul]
  · rw [Int.one_mul]

/-- Every character of a spelling is one byte, in both modes. -/
theorem length_unitBytes (spelling : Spelling) (mode : Mode) :
    (spelling.text.flatMap mode.unitBytes).length = spelling.text.length := by
  have single (code : Nat) (member : code ∈ spelling.text) :
      (mode.unitBytes code).length = 1 := by
    have isAscii : code < 0x80 := Nat.lt_of_le_of_lt (bounds_of_mem member).2 (by decide)
    cases mode with
    | bytes => rfl
    | text =>
        show (Utf8.encodeCode code).length = 1
        rw [Utf8.encodeCode, if_pos isAscii]
        rfl
  rw [List.length_flatMap, List.map_congr_left single, List.map_const', List.sum_replicate_nat,
    Nat.mul_one]

/-- Behind a spelling, the position is as many bytes further as it has characters. -/
theorem eq_add_length {source : Source} {mark last : Nat} (admits : source.Admits mark)
    (lastAdmits : source.Admits last)
    (isAhead : source.unitsFrom mark = spelling.text ++ source.unitsFrom last) :
    last = mark + spelling.text.length := by
  have width := admits.add_unitsFrom_bytes
  have lastWidth := lastAdmits.add_unitsFrom_bytes
  rw [isAhead, List.flatMap_append, List.length_append, length_unitBytes] at width
  omega

end Spelling

end Number

/-! ## Reading at a position -/

namespace View

open Number (Spelling form LongestMatch)

/-- **Reading a number is a longest match.** At every position of a source, in both modes, let the
longest match of the form begin what is ahead. Without one, nothing is read and the position
stays. Otherwise the position is right behind it, and the match is made an integer of its decimal
value, with a sign exactly if it has a minus, as long as it has no point and at most 4300 digits;
with more digits it is refused; with a point it is made the floating-point number that is read from
just this text. -/
theorem number_is_longest_match (source : Source) (mark : Nat) (admits : source.Admits mark) :
    ((∀ text ∈ form.matches', ¬ text <+: source.unitsFrom mark) →
      number ⟨source, []⟩ mark = (.ok none, mark)) ∧
    ∀ found, LongestMatch found (source.unitsFrom mark) →
      ∃ (spelling : Spelling) (result : Except Fault (Option Number)),
        spelling.text = found ∧
        number ⟨source, []⟩ mark = (result, mark + found.length) ∧
        (spelling.fraction = none → spelling.whole.length ≤ 4300 →
          result = .ok (some ⟨if spelling.negative then .integer else .uint,
            .whole ((if spelling.negative then -1 else 1) *
              (Nat.ofDigits 10 (spelling.whole.map Fin.val).reverse : Nat))⟩)) ∧
        (spelling.fraction = none → 4300 < spelling.whole.length →
          result = .error (.integerDigits spelling.whole.length)) ∧
        (spelling.fraction.isSome → ∃ value, Numeral.readReal found = some value ∧
          result = .ok (some ⟨.float, .real value⟩)) := by
  rcases number_bare_cases admits with
    ⟨spelling, rest, last, isAhead, ends, lastAdmits, isRest, refused, answered⟩ |
    ⟨unspelled, answered⟩
  · constructor
    · intro unmatched
      have isPrefix : spelling.text <+: source.unitsFrom mark := isAhead ▸ List.prefix_append _ _
      exact absurd isPrefix (unmatched _ (Number.mem_form_iff.mpr ⟨spelling, rfl⟩))
    · intro found isLongest
      obtain ⟨other, rfl, longest⟩ := isLongest.exists_spelling
      rw [isAhead] at longest
      obtain rfl := ends.eq_of_longest longest
      rw [← isRest] at isAhead
      have isLast := Spelling.eq_add_length admits lastAdmits isAhead
      subst isLast
      by_cases tooLong : other.TooLong
      · obtain ⟨noFraction, many⟩ := tooLong
        refine ⟨other, _, rfl, refused ⟨noFraction, many⟩, ?_, fun _ _ => rfl, ?_⟩
        · intro _ few
          exact absurd many (Nat.not_lt.mpr few)
        · intro hasFraction
          rw [noFraction] at hasFraction
          cases hasFraction
      · refine ⟨other, _, rfl, answered tooLong, ?_, ?_, ?_⟩
        · intro noFraction few
          rw [Spelling.number, noFraction]
          dsimp only
          rw [Spelling.integer_eq_ofDigits]
        · intro noFraction many
          exact absurd ⟨noFraction, many⟩ tooLong
        · intro hasFraction
          obtain ⟨fraction, isFraction⟩ := Option.isSome_iff_exists.mp hasFraction
          refine ⟨_, Spelling.readReal_text isFraction, ?_⟩
          rw [Spelling.number, isFraction]
  · refine ⟨fun _ => answered, fun found isLongest => ?_⟩
    obtain ⟨spelling, rfl, longest⟩ := isLongest.exists_spelling
    exact absurd longest.1 (unspelled spelling)

/-- In `é-1..5`, past the accented letter: a match with nothing after its point, which the second
point ends. -/
theorem number_is_longest_match_second_point :
    let source : Source := ⟨.text, #[0xC3, 0xA9, 0x2D, 0x31, 0x2E, 0x2E, 0x35], 0, 7⟩
    source.Admits 2 ∧ LongestMatch [0x2D, 0x31, 0x2E] (source.unitsFrom 2) ∧
      ∃ value, Numeral.readReal [0x2D, 0x31, 0x2E] = some value ∧
        number ⟨source, []⟩ 2 = (.ok (some ⟨.float, .real value⟩), 5) := by
  let source : Source := ⟨.text, #[0xC3, 0xA9, 0x2D, 0x31, 0x2E, 0x2E, 0x35], 0, 7⟩
  have accepted : Source.ofInput .text (.text [0xE9, 0x2D, 0x31, 0x2E, 0x2E, 0x35]) =
      .ok source := rfl
  have wellFormed : source.WellFormed :=
    Source.wellFormed_ofInput (by rintro text ⟨rfl⟩; decide) accepted
  have boundary : Utf8.ScalarBoundary source.bytes.toList 2 :=
    @Utf8.scalarBoundary_of_split _ [0xE9] [0x2D, 0x31, 0x2E, 0x2E, 0x35]
      (by simp [Code.isScalar_iff]) rfl
  have admits : source.Admits 2 := ⟨wellFormed, Nat.zero_le _, by decide, fun _ => boundary⟩
  let spelling : Spelling := ⟨true, [1], some [], List.cons_ne_nil _ _⟩
  have ends : spelling.Ends [0x2E, 0x35] := ⟨by rintro code ⟨rfl⟩; decide, nofun⟩
  have units : source.unitsFrom 2 = spelling.text ++ [0x2E, 0x35] := by decide +kernel
  have isLongest : LongestMatch spelling.text (source.unitsFrom 2) := by
    rw [units]
    exact Number.longestMatch_text_iff.mpr ends.longest
  obtain ⟨other, result, same, answer, -, -, real⟩ :=
    (number_is_longest_match source 2 admits).2 _ isLongest
  rw [← List.append_nil spelling.text] at same
  obtain ⟨-, rfl⟩ := spelling.ends_nil.eq_of_text same
  obtain ⟨value, isValue, rfl⟩ := real rfl
  exact ⟨admits, isLongest, value, isValue, answer⟩

end View

/-! ## Reading whole texts -/

namespace Number

/-- Spellings are ASCII, so a text with half a surrogate pair is none. -/
theorem hasSurrogate_of_mem_form {text : Text} (matched : text ∈ form.matches') :
    text.hasSurrogate = false := by
  obtain ⟨spelling, rfl⟩ := mem_form_iff.mp matched
  rw [Text.hasSurrogate, List.any_eq_false]
  intro code member isSurrogate
  have isAscii : code < 0x80 :=
    Nat.lt_of_le_of_lt (Spelling.bounds_of_mem member).2 (by decide)
  have scalar := Code.isScalar_of_ascii isAscii
  rw [scalar.2] at isSurrogate
  cases isSurrogate

theorem ofText_of_hasSurrogate {text : Text} (codePoints : ∀ code ∈ text, code ≤ Code.greatest)
    (surrogate : text.hasSurrogate = true) :
    ∃ fault, fault.isParseFailure = true ∧ ofText text = .error fault := by
  obtain ⟨defect, isDefect⟩ : ∃ defect, Utf8.encode text = .error defect :=
    ⟨_, Utf8.encode_of_hasSurrogate codePoints surrogate⟩
  refine ⟨defect.fault, rfl, ?_⟩
  rw [ofText, Source.ofText, isDefect]

/-- Without surrogates a text is read as a number that fills a source of it. -/
theorem ofText_eq_wholeNumber {text : Text} (scalars : text.IsScalar) :
    ∃ source : Source, source.Admits 0 ∧ source.unitsFrom 0 = text ∧
      ofText text = (View.wholeNumber ⟨source, []⟩ 0).1 := by
  have codePoints := (Text.isScalar_iff.mp scalars).1
  have accepted := Source.ofText_eq scalars
  have wellFormed := @Source.wellFormed_ofInput .text (.text text) _
    (by rintro other ⟨rfl⟩; exact codePoints) accepted
  refine ⟨_, wellFormed.admits_start, (Source.unitsFrom_ofText codePoints accepted).2, ?_⟩
  rw [ofText, accepted]

/-- An integer of too many digits at the beginning of a text is refused, whatever follows it. -/
theorem ofText_tooLong {text : Text} {spelling : Spelling} (scalars : text.IsScalar)
    (longest : spelling.Longest text) (tooLong : spelling.TooLong) :
    ofText text = .error (.integerDigits spelling.whole.length) := by
  obtain ⟨source, admits, units, isReading⟩ := ofText_eq_wholeNumber scalars
  rw [isReading]
  rw [← units] at longest
  exact View.wholeNumber_tooLong admits longest tooLong

/-- **A text is read as a number exactly if it has the form, and every other text is a failed
parse**, surrogates or not, unless the longest match at its beginning is an integer of more than
4300 digits. Such a text, if it has an encoding at all, is refused for these digits, which is no
failed parse, even where it has the form. -/
theorem ofText_accepts_form (text : Text) (codePoints : ∀ code ∈ text, code ≤ Code.greatest) :
    ((text.hasSurrogate = true ∨ ∀ spelling : Spelling, LongestMatch spelling.text text →
        spelling.fraction = none → spelling.whole.length ≤ 4300) →
      ((∃ number, ofText text = .ok number) ↔ text ∈ form.matches') ∧
      (∀ spelling : Spelling, spelling.text = text → ofText text = .ok spelling.number) ∧
      ∀ fault, ofText text = .error fault → fault.isParseFailure = true) ∧
    ∀ spelling : Spelling, text.hasSurrogate = false → LongestMatch spelling.text text →
      spelling.fraction = none → 4300 < spelling.whole.length →
      ofText text = .error (.integerDigits spelling.whole.length) ∧
        (Fault.integerDigits spelling.whole.length).isParseFailure = false := by
  constructor
  · intro limited
    by_cases surrogate : text.hasSurrogate = true
    · obtain ⟨fault, isFailure, refused⟩ := ofText_of_hasSurrogate codePoints surrogate
      have unmatched : text ∉ form.matches' := by
        intro matched
        rw [hasSurrogate_of_mem_form matched] at surrogate
        cases surrogate
      rw [refused]
      refine ⟨⟨nofun, fun matched => absurd matched unmatched⟩, ?_, ?_⟩
      · intro spelling isText
        exact absurd (mem_form_iff.mpr ⟨spelling, isText⟩) unmatched
      · rintro _ ⟨rfl⟩
        exact isFailure
    · have scalars := Text.isScalar_iff.mpr ⟨codePoints, Bool.eq_false_iff.mpr surrogate⟩
      obtain ⟨source, admits, units, isReading⟩ := ofText_eq_wholeNumber scalars
      have short (spelling : Spelling) (longest : spelling.Longest (source.unitsFrom 0)) :
          ¬ spelling.TooLong := by
        rintro ⟨noFraction, many⟩
        rw [units] at longest
        have few := (limited.resolve_left surrogate) spelling
          (longestMatch_text_iff.mpr longest) noFraction
        exact Nat.not_lt.mpr few many
      rw [isReading]
      rcases View.wholeNumber_reads admits short with
        ⟨spelling, isText, answered⟩ | ⟨unspelled, fault, isFailure, refused⟩
      · rw [units] at isText
        subst isText
        rw [answered]
        refine ⟨⟨fun _ => mem_form_iff.mpr ⟨spelling, rfl⟩, fun _ => ⟨_, rfl⟩⟩, ?_, nofun⟩
        intro other same
        rw [← List.append_nil spelling.text] at same
        rw [(spelling.ends_nil.eq_of_text same).2]
      · rw [units] at unspelled
        rw [refused]
        refine ⟨⟨nofun, fun matched => ?_⟩, ?_, ?_⟩
        · obtain ⟨spelling, isText⟩ := mem_form_iff.mp matched
          exact absurd isText (unspelled spelling)
        · intro spelling isText
          exact absurd isText (unspelled spelling)
        · rintro _ ⟨rfl⟩
          exact isFailure
  · intro spelling noSurrogate isLongest noFraction many
    have scalars := Text.isScalar_iff.mpr ⟨codePoints, noSurrogate⟩
    exact ⟨ofText_tooLong scalars (longestMatch_text_iff.mp isLongest) ⟨noFraction, many⟩, rfl⟩

/-- The digit one, again and again. -/
def Spelling.ones (more : Nat) : Spelling :=
  ⟨false, List.replicate (more + 1) 1, none, List.cons_ne_nil _ _⟩

theorem Spelling.ones_text (more : Nat) : (ones more).text = List.replicate (more + 1) 0x31 := by
  simp [text, ones, sign, point, digits]

theorem Spelling.length_ones (more : Nat) : (ones more).whole.length = more + 1 :=
  List.length_replicate

theorem Spelling.isScalar_ones {more : Nat} {rest : Text} (scalars : rest.IsScalar) :
    Text.IsScalar (List.replicate (more + 1) 0x31 ++ rest) := by
  have isScalar : Code.IsScalar 0x31 := by decide
  rw [Text.isScalar_append]
  refine ⟨fun code member => ?_, scalars⟩
  rw [List.eq_of_mem_replicate member]
  exact isScalar

/-- As many ones as are allowed are read; one more, and something else behind them, are refused
for their number. -/
theorem ofText_accepts_form_at_limit :
    (∃ number, ofText (List.replicate 4300 0x31) = .ok number) ∧
      ofText (List.replicate 4301 0x31 ++ [0x78]) = .error (.integerDigits 4301) := by
  have allowed : Text.IsScalar (List.replicate 4300 0x31 ++ []) :=
    @Spelling.isScalar_ones 4299 [] (by simp)
  have beyond : Text.IsScalar (List.replicate 4301 0x31 ++ [0x78]) :=
    @Spelling.isScalar_ones 4300 [0x78] (by simp [Code.isScalar_iff])
  rw [List.append_nil] at allowed
  constructor
  · have few (spelling : Spelling)
        (longest : LongestMatch spelling.text (List.replicate 4300 0x31))
        (noFraction : spelling.fraction = none) : spelling.whole.length ≤ 4300 := by
      have short := (longestMatch_text_iff.mp longest).not_tooLong
        (by rw [List.length_replicate]; rfl)
      exact Nat.not_lt.mp fun many => short ⟨noFraction, many⟩
    have reads := (ofText_accepts_form _ (Text.isScalar_iff.mp allowed).1).1 (.inr few)
    exact ⟨_, reads.2.1 (Spelling.ones 4299) (Spelling.ones_text 4299)⟩
  · have ends : (Spelling.ones 4300).Ends [0x78] :=
      ⟨by rintro code ⟨rfl⟩; decide, fun _ => by decide⟩
    rw [← Spelling.ones_text 4300] at beyond ⊢
    have codePoints := Text.isScalar_iff.mp beyond
    have many : 4300 < (Spelling.ones 4300).whole.length := by
      rw [Spelling.length_ones]
      exact Nat.lt_succ_self _
    have refused := (ofText_accepts_form _ codePoints.1).2 (Spelling.ones 4300) codePoints.2
      (longestMatch_text_iff.mpr ends.longest) rfl many
    rw [Spelling.length_ones] at refused
    exact refused.1

/-- A text of the form that is refused, and not as a failed parse. -/
theorem long_integer_is_no_number :
    let text : Text := List.replicate 4301 0x31
    text ∈ form.matches' ∧ ofText text = .error (.integerDigits 4301) ∧
      (Fault.integerDigits 4301).isParseFailure = false := by
  intro text
  have isText : (Spelling.ones 4300).text = text := Spelling.ones_text 4300
  have scalars : Text.IsScalar (text ++ []) := @Spelling.isScalar_ones 4300 [] (by simp)
  rw [List.append_nil] at scalars
  have longest : (Spelling.ones 4300).Longest text := by
    rw [← isText, ← List.append_nil (Spelling.ones 4300).text]
    exact (Spelling.ones 4300).ends_nil.longest
  have tooLong : (Spelling.ones 4300).TooLong := by
    refine ⟨rfl, ?_⟩
    rw [Spelling.length_ones]
    exact Nat.lt_succ_self _
  have refused := ofText_tooLong scalars longest tooLong
  rw [Spelling.length_ones] at refused
  exact ⟨mem_form_iff.mpr ⟨_, isText⟩, refused, rfl⟩

end Number

end RecordScan
