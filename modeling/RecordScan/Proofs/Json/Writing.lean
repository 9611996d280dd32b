import RecordScan.Command.Json
import RecordScan.Proofs.Json.Grammar
import RecordScan.Proofs.Utf8.Incremental

/-!
Contract: documents as they are printed.

Owns: that numbers, strings and brackets are written as the grammar has them, for which the
digits that are searched for a number need not be right, only not begin with a zero; the
documents without a number that is not finite (`JsonValue.IsFinite`); and that these are
the documents whose text is a value (`JsonValue.value_write_iff`).
-/

namespace RecordScan

open Json

/-! ## Digits -/

theorem Json.isDigits_toDigits (number : Nat) : IsDigits (Nat.toDigits 10 number) :=
  ⟨Nat.toDigits_ne_nil, fun _ member => Nat.isDigit_of_mem_toDigits (by decide) (by decide) member⟩

theorem Json.head?_toDigits {number : Nat} (notZero : number ≠ 0) :
    (Nat.toDigits 10 number).head? ≠ some '0' := by
  -- The first digit is that of the number without its last one.
  induction number using Nat.strongRecOn with
  | ind number inductionHypothesis =>
      rcases Nat.lt_or_ge number 10 with small | large
      · rw [Nat.toDigits_of_lt_base small, List.head?_cons, ne_eq, Option.some.injEq,
          Nat.digitChar_eq_zero]
        exact notZero
      · rw [Nat.toDigits_of_base_le (by decide) large,
          List.head?_append_of_ne_nil _ Nat.toDigits_ne_nil]
        exact inductionHypothesis (number / 10) (by omega) (by omega)

theorem Json.isWhole_toDigits (number : Nat) : IsWhole (Nat.toDigits 10 number) := by
  refine ⟨isDigits_toDigits number, fun isZero => ?_⟩
  by_cases notZero : number = 0
  · rw [notZero]
    rfl
  · exact absurd isZero (head?_toDigits notZero)

theorem Json.isNumber_toString (value : Int) : IsNumber (toString value).toList := by
  have isMagnitude (number : Nat) : IsMagnitude (Nat.toDigits 10 number) := by
    have whole := IsMagnitude.mk (isWhole_toDigits number) .none .none
    rwa [List.append_nil, List.append_nil] at whole
  cases value with
  | ofNat number =>
      show IsNumber (String.ofList (Nat.toDigits 10 number)).toList
      rw [String.toList_ofList]
      exact .positive (isMagnitude number)
  | negSucc number =>
      have isText : (toString (Int.negSucc number)).toList =
          '-' :: Nat.toDigits 10 number.succ := by
        show ("-" ++ String.ofList (Nat.toDigits 10 number.succ)).toList = _
        rw [String.toList_append, String.toList_ofList, String.toList_ofList]
        rfl
      rw [isText]
      exact .negative (isMagnitude number.succ)

/-! ## Floating-point numbers -/

namespace Binary64

theorem ofDecimal_ne_of_zero {significand : Nat} {exponent unit : Int} (notZero : significand ≠ 0) :
    ofDecimal false 0 unit ≠ .finite false significand exponent := by
  intro same
  cases same
  exact notZero rfl

theorem le_roundQuotient (numerator denominator : Nat) :
    numerator / denominator ≤ roundQuotient numerator denominator := by
  unfold roundQuotient
  extract_lets quotient twice
  split
  · exact Nat.le_refl _
  · split
    · exact Nat.le_add_right _ _
    · exact Nat.le_add_right _ _

/-- A decimal that reads back as a number other than zero is not zero. -/
theorem candidate?_ne_zero {significand : Nat} {exponent leading : Int}
    {numerator denominator count : Nat} {found : Nat × Int} (notZero : significand ≠ 0)
    (isFound : candidate? (.finite false significand exponent) numerator denominator leading count =
      some found) : found.1 ≠ 0 := by
  unfold candidate? at isFound
  extract_lets unit numerator denominator below reads at isFound
  have ne_zero_of_reads (digits : Nat) (isRead : reads digits = true) : digits ≠ 0 := by
    rintro rfl
    exact ofDecimal_ne_of_zero notZero (of_decide_eq_true isRead)
  split at isFound
  · next isBelow _ =>
      cases isFound
      have positive := Nat.pos_of_ne_zero (ne_zero_of_reads below isBelow)
      exact Nat.ne_of_gt (Nat.lt_of_lt_of_le positive (le_roundQuotient _ _))
  · next isBelow _ =>
      cases isFound
      exact ne_zero_of_reads below isBelow
  · cases isFound
    exact Nat.succ_ne_zero below
  · cases isFound

theorem dropZeros_ne_zero (fuel : Nat) {decimal : Nat × Int} (notZero : decimal.1 ≠ 0) :
    (dropZeros fuel decimal).1 ≠ 0 := by
  induction fuel generalizing decimal with
  | zero => exact notZero
  | succ fuel inductionHypothesis =>
      unfold dropZeros
      split
      · next isTenfold =>
          apply inductionHypothesis
          simp only [Bool.and_eq_true, decide_eq_true_eq] at isTenfold
          dsimp only at notZero ⊢
          omega
      · exact notZero

/-- The digits that are found are not zero, or none are found. -/
theorem shortest_cases {significand : Nat} (notZero : significand ≠ 0) (exponent : Int) :
    (shortest significand exponent).1 ≠ 0 ∨ shortest significand exponent = (0, 0) := by
  dsimp only [shortest]
  cases isFound : (List.range' 1 17).findSome? fun count =>
      candidate? (.finite false significand exponent) (ratio significand exponent).1
        (ratio significand exponent).2
        (leadingExponent (ratio significand exponent).1 (ratio significand exponent).2) count with
  | none => exact .inr rfl
  | some decimal =>
      obtain ⟨count, -, isCandidate⟩ := List.exists_of_findSome?_eq_some isFound
      exact .inl (dropZeros_ne_zero 17 (candidate?_ne_zero notZero isCandidate))

/-! ## Layouts of digits -/

theorem isDigit_of_mem_zeros {count : Nat} {char : Char} (member : char ∈ zeros count) :
    char.isDigit = true := by
  rw [List.eq_of_mem_replicate member]
  rfl

theorem isDigits_zeros_append (count : Nat) {digits : List Char} (areDigits : IsDigits digits) :
    IsDigits (zeros count ++ digits) := by
  refine ⟨List.append_ne_nil_of_right_ne_nil _ areDigits.1, ?_⟩
  exact List.forall_mem_append.mpr ⟨fun _ => isDigit_of_mem_zeros, areDigits.2⟩

/-- Digits with a point are a number if they do not begin with a zero, or if zero is all there
is. -/
theorem isMagnitude_positional {digits : List Char} {leading : Int} (areDigits : IsDigits digits)
    (begins : digits.head? = some '0' → digits = ['0'] ∧ leading = 0) :
    IsMagnitude (positional digits leading) := by
  unfold positional
  split
  · have isZero : IsWhole ['0'] := isWhole_toDigits 0
    have magnitude := IsMagnitude.mk isZero
      (.point (isDigits_zeros_append (-leading - 1).toNat areDigits)) .none
    simpa using magnitude
  · next notNegative =>
      extract_lets count whole fraction
      have isWhole : IsWhole whole := by
        obtain ⟨first, others, rfl⟩ := List.exists_cons_of_ne_nil areDigits.1
        refine ⟨⟨List.cons_ne_nil _ _, ?_⟩, ?_⟩
        · refine List.forall_mem_append.mpr ⟨?_, fun _ => isDigit_of_mem_zeros⟩
          exact fun char member => areDigits.2 char (List.mem_of_mem_take member)
        · intro isZero
          obtain ⟨same, noExponent⟩ := begins isZero
          cases same
          subst noExponent
          rfl
      have isFraction : IsFraction ('.' :: (if fraction.isEmpty then ['0'] else fraction)) := by
        apply IsFraction.point
        split
        · exact isDigits_toDigits 0
        · next notEmpty =>
            refine ⟨by simpa using notEmpty, ?_⟩
            exact fun char member => areDigits.2 char (List.mem_of_mem_drop member)
      have magnitude := IsMagnitude.mk isWhole isFraction .none
      rwa [List.append_nil] at magnitude

theorem isMagnitude_scientific (form : Form) {digits : List Char} (leading : Int)
    (areDigits : IsDigits digits) : IsMagnitude (scientific form digits leading) := by
  unfold scientific
  extract_lets fraction exponent
  obtain ⟨first, others, rfl⟩ := List.exists_cons_of_ne_nil areDigits.1
  have isWhole : IsWhole [first] := by
    refine ⟨⟨List.cons_ne_nil _ _, ?_⟩, ?_⟩
    · simpa using areDigits.2 first (List.mem_cons_self ..)
    · rintro ⟨rfl⟩
      rfl
  have isFraction : IsFraction (if fraction.isEmpty then [] else '.' :: fraction) := by
    split
    · exact .none
    · next notEmpty =>
        refine .point ⟨by simpa using notEmpty, ?_⟩
        exact fun char member => areDigits.2 char (List.mem_of_mem_drop member)
  have isExponent : IsExponent ('e' :: (if leading < 0 then '-' else '+') ::
      (zeros (form.exponentWidth - exponent.length) ++ exponent)) := by
    refine .signed (.inl rfl) ?_ (isDigits_zeros_append _ (isDigits_toDigits _))
    split
    · exact .inr rfl
    · exact .inl rfl
  have magnitude := IsMagnitude.mk isWhole isFraction isExponent
  simpa using magnitude

theorem isMagnitude_writeMagnitude (form : Form) (significand : Nat) (exponent : Int) :
    IsMagnitude (writeMagnitude form significand exponent) := by
  unfold writeMagnitude
  split
  · exact IsMagnitude.mk (isWhole_toDigits 0) (.point (isDigits_toDigits 0)) .none
  · next notZero =>
      dsimp only
      split
      · apply isMagnitude_positional (isDigits_toDigits _)
        intro isZero
        rcases shortest_cases notZero exponent with someDigits | noDigits
        · exact absurd isZero (head?_toDigits someDigits)
        · rw [noDigits]
          exact ⟨rfl, rfl⟩
      · exact isMagnitude_scientific form _ (isDigits_toDigits _)

/-- Numbers that are finite. -/
def IsFinite : Binary64 → Prop
  | .finite .. => True
  | .nan | .infinite _ => False

/-- A finite number is written as JSON has it, and every other one by its name. -/
theorem write_cases (number : Binary64) :
    (number.IsFinite ∧ IsNumber (number.write .result).toList) ∨
      (¬ number.IsFinite ∧ Closed (number.write .result).toList ∧
        HasName (number.write .result).toList) := by
  cases number with
  | finite negative significand exponent =>
      left
      refine ⟨trivial, ?_⟩
      have isMagnitude := isMagnitude_writeMagnitude .result significand exponent
      cases negative with
      | false =>
          rw [write, String.toList_ofList]
          exact .positive isMagnitude
      | true =>
          rw [write, String.toList_ofList]
          exact .negative isMagnitude
  | nan => exact .inr ⟨id, closed_of_notMem (by decide), .inr (by decide)⟩
  | infinite negative =>
      cases negative with
      | false => exact .inr ⟨id, closed_of_notMem (by decide), .inl (by decide)⟩
      | true => exact .inr ⟨id, closed_of_notMem (by decide), .inl (by decide)⟩

end Binary64

/-! ## Strings -/

theorem Json.isHex_hexDigit : ∀ value < 16, isHex (Text.hexDigit value) = true := by
  decide

theorem Json.hexDigits_areHex (width value : Nat) :
    (Text.hexDigits width value).length = width ∧
      ∀ digit ∈ Text.hexDigits width value, isHex digit = true := by
  induction width generalizing value with
  | zero => exact ⟨rfl, nofun⟩
  | succ width inductionHypothesis =>
      obtain ⟨isLength, areHex⟩ := inductionHypothesis (value / 16)
      rw [Text.hexDigits]
      refine ⟨by simp [isLength], List.forall_mem_append.mpr ⟨areHex, ?_⟩⟩
      simpa using isHex_hexDigit (value % 16) (Nat.mod_lt value (by decide))

namespace JsonValue

theorem characters_escapeUnit (unit : Nat) {rest : List Char} (later : Characters rest) :
    Characters (escapeUnit unit ++ rest) := by
  obtain ⟨isFour, areHex⟩ := hexDigits_areHex 4 unit
  exact .unit isFour areHex later

theorem characters_writeCode (code : Code) {rest : List Char} (later : Characters rest) :
    Characters (writeCode code ++ rest) := by
  unfold writeCode
  split_ifs with isMark printable
  · simp only [Bool.or_eq_true, decide_eq_true_eq] at isMark
    rcases isMark with rfl | rfl
    · exact .escape (by decide) later
    · exact .escape (by decide) later
  · have isScalar : Code.IsScalar code :=
      Code.isScalar_of_ascii (Nat.lt_of_le_of_lt printable.2 (by decide))
    have isCode := Utf8.toNat_charOfNat isScalar
    simp only [Bool.or_eq_true, decide_eq_true_eq, not_or] at isMark
    refine .plain (le_of_le_of_eq printable.1 isCode.symm) ?_ ?_ later
    · intro isQuote
      exact isMark.1 (isCode.symm.trans (congrArg Char.toNat isQuote))
    · intro isBackslash
      exact isMark.2 (isCode.symm.trans (congrArg Char.toNat isBackslash))
  · exact .escape (by decide) later
  · exact .escape (by decide) later
  · exact .escape (by decide) later
  · exact .escape (by decide) later
  · exact .escape (by decide) later
  · exact characters_escapeUnit code later
  · rw [List.append_assoc]
    exact characters_escapeUnit _ (characters_escapeUnit _ later)

/-- Every text is written as a string, also one with lone surrogates. -/
theorem isString_writeString (text : Text) : IsString (writeString text).toList := by
  rw [writeString, String.toList_ofList]
  apply IsString.mk
  induction text with
  | nil => exact .nil
  | cons code text inductionHypothesis => exact characters_writeCode code inductionHypothesis

/-! ## Brackets -/

theorem isBlank_lineBreak (depth : Nat) : IsBlank (Layout.indented.lineBreak depth).toList := by
  intro char member
  simp only [Layout.indented, String.toList_append, String.toList_ofList, List.mem_append] at member
  rcases member with isBreak | isSpace
  · simp at isBreak
    exact .inr (.inr (.inl isBreak))
  · exact .inl (List.eq_of_mem_replicate isSpace)

/-- Blanks before each item and behind the last one go with the items. -/
theorem exists_padded {front back : List Char} (isFront : IsBlank front) (isBack : IsBlank back)
    {items : List (List Char)} (nonempty : items ≠ []) :
    ∃ padded, List.Forall₂ Pads items padded ∧
      front ++ ((',' :: front).intercalate items ++ back) = [','].intercalate padded := by
  induction items with
  | nil => exact absurd rfl nonempty
  | cons first rest inductionHypothesis =>
      cases rest with
      | nil =>
          refine ⟨[front ++ (first ++ back)], .cons ⟨front, back, isFront, isBack, rfl⟩ .nil, ?_⟩
          simp
      | cons second rest =>
          obtain ⟨padded, arePadded, joined⟩ := inductionHypothesis (List.cons_ne_nil second rest)
          have alone : Pads first (front ++ first) :=
            ⟨front, [], isFront, nofun, by rw [List.append_nil]⟩
          refine ⟨(front ++ first) :: padded, .cons alone arePadded, ?_⟩
          cases arePadded with
          | cons isPadded others =>
              rw [List.intercalate_cons_cons, List.intercalate_cons_cons, ← joined]
              simp

/-- Items are enclosed as the grammar has it. -/
theorem encloses_enclose {opening closing : String} {first last : Char}
    (isOpening : opening.toList = [first]) (isClosing : closing.toList = [last]) (depth : Nat)
    (items : List String) :
    Encloses first last (items.map String.toList)
      (enclose .indented opening closing depth items).toList := by
  unfold enclose
  split
  · next isEmpty =>
      rw [List.isEmpty_iff.mp isEmpty, String.toList_append, isOpening, isClosing]
      exact .empty nofun
  · next notEmpty =>
      have nonempty : items.map String.toList ≠ [] := by simpa using notEmpty
      obtain ⟨padded, arePadded, joined⟩ :=
        exists_padded (isBlank_lineBreak (depth + 1)) (isBlank_lineBreak depth) nonempty
      have isBetween : Layout.indented.between.toList = [','] := rfl
      rw [String.toList_append, String.toList_append, String.toList_append, String.toList_append,
        String.toList_intercalate, String.toList_append, isOpening, isClosing, isBetween,
        List.append_assoc, List.append_assoc, List.append_assoc]
      have isText := @Encloses.items first last _ _ nonempty arePadded
      rw [← joined] at isText
      simpa using isText

/-! ## Documents -/

theorem sizeOf_snd_lt {fields : List (String × JsonValue)} {field : String × JsonValue}
    (member : field ∈ fields) : sizeOf field.2 < sizeOf fields := by
  have inFields := List.sizeOf_lt_of_mem member
  cases field with
  | mk name value =>
      simp only [Prod.mk.sizeOf_spec] at inFields
      dsimp only
      omega

/-- What holds of a document if it holds of its items and fields holds of every document. -/
theorem memberInduction {motive : JsonValue → Prop} (null : motive .null)
    (integer : ∀ value, motive (.integer value)) (real : ∀ value, motive (.real value))
    (string : ∀ value, motive (.string value))
    (array : ∀ items, (∀ item ∈ items, motive item) → motive (.array items))
    (object : ∀ fields, (∀ field ∈ fields, motive field.2) → motive (.object fields)) :
    ∀ document, motive document
  | .null => null
  | .integer value => integer value
  | .real value => real value
  | .string value => string value
  | .array items => array items fun item _ =>
      memberInduction null integer real string array object item
  | .object fields => object fields fun field member =>
      have := sizeOf_snd_lt member
      memberInduction null integer real string array object field.2

/-- Documents in which every number is finite. -/
inductive IsFinite : JsonValue → Prop where
  | null : IsFinite .null
  | integer (value : Int) : IsFinite (.integer value)
  | real {value : Binary64} (isFinite : value.IsFinite) : IsFinite (.real value)
  | string (value : Text) : IsFinite (.string value)
  | array {items : List JsonValue} (areFinite : ∀ item ∈ items, IsFinite item) :
      IsFinite (.array items)
  | object {fields : List (String × JsonValue)} (areFinite : ∀ field ∈ fields, IsFinite field.2) :
      IsFinite (.object fields)

theorem isFinite_real_iff {value : Binary64} : (real value).IsFinite ↔ value.IsFinite := by
  constructor
  · intro isFinite
    cases isFinite with
    | real isFinite => exact isFinite
  · exact .real

theorem writeItems_eq_map (layout : Layout) (depth : Nat) (items : List JsonValue) :
    writeItems layout depth items = items.map (write layout depth) := by
  induction items with
  | nil => rw [writeItems, List.map_nil]
  | cons item items inductionHypothesis =>
      rw [writeItems, inductionHypothesis, List.map_cons]

theorem writeFields_eq_map (layout : Layout) (depth : Nat) (fields : List (String × JsonValue)) :
    writeFields layout depth fields =
      fields.map fun field =>
        writeString (Text.ofString field.1) ++ ": " ++ write layout depth field.2 := by
  induction fields with
  | nil => rw [writeFields, List.map_nil]
  | cons field fields inductionHypothesis =>
      rw [writeFields, inductionHypothesis, List.map_cons]

/-- A field is written as its name, a colon and a blank, and its value. -/
theorem field_write (name : String) (value : String) :
    FieldText (writeString (Text.ofString name)).toList value.toList
      (writeString (Text.ofString name) ++ ": " ++ value).toList := by
  have isBlank : IsBlank [' '] := by simp [IsBlank]
  have isField := @FieldText.mk (writeString (Text.ofString name)).toList value.toList [] [' '] nofun
    isBlank
  rw [String.toList_append, String.toList_append, List.append_assoc]
  exact isField

theorem encloses_array (items : List JsonValue) (depth : Nat) :
    Encloses '[' ']' (items.map fun item => (item.write .indented (depth + 1)).toList)
      ((array items).write .indented depth).toList := by
  have encloses := @encloses_enclose "[" "]" '[' ']' rfl rfl depth
    (items.map (write .indented (depth + 1)))
  rwa [List.map_map, ← writeItems_eq_map] at encloses

/-- The texts of the name and of the value of a field at a depth. -/
def fieldTexts (depth : Nat) (field : String × JsonValue) : List Char × List Char :=
  ((writeString (Text.ofString field.1)).toList, (field.2.write .indented depth).toList)

theorem encloses_object (fields : List (String × JsonValue)) (depth : Nat) :
    ∃ items,
      List.Forall₂ (fun field item => FieldText field.1 field.2 item)
        (fields.map (fieldTexts (depth + 1))) items ∧
      Encloses '\x7b' '\x7d' items ((object fields).write .indented depth).toList := by
  have encloses := @encloses_enclose "\x7b" "\x7d" '\x7b' '\x7d' rfl rfl depth
    (writeFields .indented (depth + 1) fields)
  refine ⟨_, ?_, encloses⟩
  rw [writeFields_eq_map, List.map_map, List.forall₂_map_left_iff, List.forall₂_map_right_iff,
    List.forall₂_same]
  intro field _
  simp only [fieldTexts, Function.comp_apply]
  exact field_write field.1 (field.2.write .indented (depth + 1))

/-- A document in which every number is finite is written as a value. -/
theorem value_write {document : JsonValue} (isFinite : document.IsFinite) (depth : Nat) :
    Value (document.write .indented depth).toList := by
  induction isFinite generalizing depth with
  | null =>
      rw [write]
      exact .null
  | integer value =>
      rw [write]
      exact .number (isNumber_toString value)
  | @real value isFinite =>
      rw [write]
      rcases value.write_cases with ⟨-, isNumber⟩ | ⟨notFinite, -⟩
      · exact .number isNumber
      · exact absurd isFinite notFinite
  | string value =>
      rw [write]
      exact .string (isString_writeString value)
  | @array items areFinite inductionHypothesis =>
      apply Value.array _ (encloses_array items depth)
      intro text member
      obtain ⟨item, isItem, rfl⟩ := List.mem_map.mp member
      exact inductionHypothesis item isItem (depth + 1)
  | @object fields areFinite inductionHypothesis =>
      obtain ⟨items, areFields, encloses⟩ := encloses_object fields depth
      apply Value.object _ _ areFields encloses
      · intro texts member
        obtain ⟨field, -, rfl⟩ := List.mem_map.mp member
        simp only [fieldTexts]
        exact isString_writeString (Text.ofString field.1)
      · intro texts member
        obtain ⟨field, isField, rfl⟩ := List.mem_map.mp member
        simp only [fieldTexts]
        exact inductionHypothesis field isField (depth + 1)

/-- The text of a document is closed, and names a number if one is not finite. -/
theorem closed_write (document : JsonValue) (depth : Nat) :
    Closed (document.write .indented depth).toList ∧
      (¬ document.IsFinite → HasName (document.write .indented depth).toList) := by
  have ofFinite (depth : Nat) {document : JsonValue} (isFinite : document.IsFinite) :
      Closed (document.write .indented depth).toList ∧
        (¬ document.IsFinite → HasName (document.write .indented depth).toList) :=
    ⟨(value_write isFinite depth).closed.1, fun notFinite => absurd isFinite notFinite⟩
  induction document using memberInduction generalizing depth with
  | null => exact ofFinite depth .null
  | integer value => exact ofFinite depth (.integer value)
  | real value =>
      rcases value.write_cases with ⟨isFinite, -⟩ | ⟨-, closed, hasName⟩
      · exact ofFinite depth (.real isFinite)
      · rw [write]
        exact ⟨closed, fun _ => hasName⟩
  | string value => exact ofFinite depth (.string value)
  | array items inductionHypothesis =>
      have itemsClosed : ∀ text ∈ items.map fun item =>
          (item.write .indented (depth + 1)).toList, Closed text := by
        intro text member
        obtain ⟨item, isItem, rfl⟩ := List.mem_map.mp member
        exact (inductionHypothesis item isItem (depth + 1)).1
      obtain ⟨closed, named⟩ := (encloses_array items depth).closed (by simp [IsPlain])
        (by simp [IsPlain]) itemsClosed
      refine ⟨closed, fun notFinite => named.mpr ?_⟩
      obtain ⟨item, notAll⟩ := not_forall.mp fun all => notFinite (.array all)
      obtain ⟨isItem, itemNotFinite⟩ := Classical.not_imp.mp notAll
      exact ⟨_, List.mem_map_of_mem isItem,
        (inductionHypothesis item isItem (depth + 1)).2 itemNotFinite⟩
  | object fields inductionHypothesis =>
      obtain ⟨items, areFields, encloses⟩ := encloses_object fields depth
      have fieldClosed : ∀ texts ∈ fields.map (fieldTexts (depth + 1)), ∀ item,
          FieldText texts.1 texts.2 item → Closed item ∧ (HasName item ↔ HasName texts.2) := by
        intro texts member item isField
        obtain ⟨field, inFields, rfl⟩ := List.mem_map.mp member
        simp only [fieldTexts] at isField ⊢
        exact isField.closed (isString_writeString _)
          (inductionHypothesis field inFields (depth + 1)).1
      obtain ⟨itemsClosed, items⟩ := closed_of_forall₂ areFields fieldClosed
      obtain ⟨closed, named⟩ := encloses.closed (by simp [IsPlain]) (by simp [IsPlain]) itemsClosed
      refine ⟨closed, fun notFinite => named.mpr (items.mpr ?_)⟩
      obtain ⟨field, notAll⟩ := not_forall.mp fun all => notFinite (.object all)
      obtain ⟨inFields, valueNotFinite⟩ := Classical.not_imp.mp notAll
      exact ⟨_, List.mem_map_of_mem inFields,
        (inductionHypothesis field inFields (depth + 1)).2 valueNotFinite⟩

/-- **A document is written as a value exactly if every number in it is finite.** -/
theorem value_write_iff (document : JsonValue) (depth : Nat) :
    Value (document.write .indented depth).toList ↔ document.IsFinite := by
  constructor
  · intro value
    apply Classical.byContradiction
    intro notFinite
    exact value.closed.2 ((document.closed_write depth).2 notFinite)
  · exact fun isFinite => value_write isFinite depth

/-- An array is written as an array with its elements, if it is written as a value at all. -/
theorem isArray_print_iff (items : List JsonValue) :
    IsArray items.length (array items).print.toList ↔ ∀ item ∈ items, item.IsFinite := by
  constructor
  · intro isArray
    have isFinite := ((array items).value_write_iff 0).mp isArray.value
    cases isFinite with
    | array areFinite => exact areFinite
  · intro areFinite
    apply IsArray.mk _ _ (encloses_array items 0)
    · exact List.length_map _
    · intro text member
      obtain ⟨item, isItem, rfl⟩ := List.mem_map.mp member
      exact value_write (areFinite item isItem) (0 + 1)

end JsonValue

end RecordScan
