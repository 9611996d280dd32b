import RecordScan.Command.Job
import RecordScan.Proofs.Scan.Visible

/-!
Contract: the units that typed delimiters stand for.

Owns: that escapes give code points only (`Delimiter.isCodes_unescape`), and what the
delimiter of a job stands for, if it stands for a unit at all: a scalar, or in a text
one lone surrogate (`Job.unit_cases`). All of it holds for every table of names, because
what has a name is a character.

A lone surrogate passes as a unit. It has no bytes to search for, so that it is refused
only when the first segment is looked for (`RecordScan.Proofs.Command.Lines`).
-/

namespace RecordScan

/-- Texts of code points. They may hold lone surrogates. -/
def Text.IsCodes (text : Text) : Prop :=
  ∀ code ∈ text, code ≤ Code.greatest

namespace Text

instance (text : Text) : Decidable text.IsCodes :=
  inferInstanceAs (Decidable (∀ code ∈ text, code ≤ Code.greatest))

@[simp] theorem isCodes_nil : IsCodes [] :=
  nofun

@[simp] theorem isCodes_cons (code : Code) (text : Text) :
    IsCodes (code :: text) ↔ code ≤ Code.greatest ∧ IsCodes text := by
  simp [IsCodes]

@[simp] theorem isCodes_append (first second : Text) :
    IsCodes (first ++ second) ↔ IsCodes first ∧ IsCodes second := by
  simp [IsCodes, or_imp, forall_and]

theorem char_le_greatest (char : Char) : char.toNat ≤ Code.greatest := by
  have valid := char.valid
  simp only [UInt32.isValidChar, Nat.isValidChar] at valid
  show char.val.toNat ≤ 0x10FFFF
  omega

theorem isCodes_ofString (string : String) : IsCodes (ofString string) := by
  intro code member
  obtain ⟨char, -, rfl⟩ := List.mem_map.mp member
  exact char_le_greatest char

theorem IsCodes.of_suffix {text whole : Text} (isCodes : whole.IsCodes)
    (isSuffix : text <:+ whole) : text.IsCodes :=
  fun code member => isCodes code (isSuffix.mem member)

end Text

theorem exists_of_map_eq_ok {ε α β : Type} {result : Except ε α} {function : α → β} {value : β}
    (mapped : result.map function = .ok value) :
    ∃ found, result = .ok found ∧ function found = value := by
  cases result with
  | error fault => cases mapped
  | ok found => exact ⟨found, rfl, Except.ok.inj mapped⟩

theorem ok_of_mapError {ε ε' α : Type} {result : Except ε α} {function : ε → ε'} {value : α}
    (mapped : result.mapError function = .ok value) : result = .ok value := by
  cases result with
  | error fault => cases mapped
  | ok found => exact congrArg Except.ok (Except.ok.inj mapped)

theorem bind_ok {ε α β : Type} (value : α) (next : α → Except ε β) :
    (Except.ok value >>= next) = next value :=
  rfl

theorem bind_error {ε α β : Type} (fault : ε) (next : α → Except ε β) :
    (Except.error fault >>= next) = .error fault :=
  rfl

theorem exists_of_bind_eq_ok {ε α β : Type} {result : Except ε α} {next : α → Except ε β}
    {value : β} (bound : result >>= next = .ok value) :
    ∃ found, result = .ok found ∧ next found = .ok value := by
  cases result with
  | error fault => cases bound
  | ok found => exact ⟨found, rfl, bound⟩

/-! ## Escapes -/

/-- Of the texts only those of one character stand for a unit, in bytes only ASCII ones. -/
theorem Mode.unit?_text_cases {mode : Mode} {text : Text} {unit : Code}
    (coerced : mode.unit? (.text text) = .ok unit) :
    text = [unit] ∧ (mode = .bytes → unit < 0x80) := by
  rcases text with _ | ⟨code, _ | ⟨second, rest⟩⟩
  · cases mode with
    | bytes => cases coerced
    | text => cases coerced
  · cases mode with
    | bytes =>
        simp only [unit?, Literal.byte?] at coerced
        split at coerced
        · next ascii =>
            cases coerced
            exact ⟨rfl, fun _ => ascii⟩
        · cases coerced
    | text =>
        cases coerced
        refine ⟨rfl, ?_⟩
        intro isBytes
        cases isBytes
  · cases mode with
    | bytes => cases coerced
    | text => cases coerced

/-- A table that knows one name. -/
def CharacterNames.comma : CharacterNames := fun name =>
  if name = [0x43, 0x4F, 0x4D, 0x4D, 0x41] then some ',' else none

namespace Delimiter

theorem byte_le_greatest (byte : UInt8) : byte.toNat ≤ Code.greatest :=
  Nat.le_trans (Nat.le_of_lt byte.toNat_lt) (by decide)

/-- A reading that gives code points if it gives anything. -/
def Reading.GivesCodes (reading : Reading) : Prop :=
  ∀ text, reading.result = .ok text → text.IsCodes

theorem Reading.givesCodes_ok {text : Text} (areCodes : text.IsCodes) (taken : Nat) :
    Reading.GivesCodes ⟨.ok text, taken⟩ := by
  rintro _ ⟨rfl⟩
  exact areCodes

theorem Reading.givesCodes_error (reason : EscapeReason) (taken : Nat) :
    Reading.GivesCodes ⟨.error reason, taken⟩ :=
  nofun

theorem givesCodes_readHex (count : Nat) (short : EscapeReason) (after : List UInt8) :
    (readHex count short after).GivesCodes := by
  unfold readHex
  extract_lets digits code
  split
  · exact Reading.givesCodes_error _ _
  · split
    · exact Reading.givesCodes_error _ _
    · next within => exact Reading.givesCodes_ok (by simpa using within) _

/-- The letter and two more digits have too few bits to leave the code points. -/
theorem givesCodes_readOctal (letter : UInt8) (after : List UInt8) :
    (readOctal letter after).GivesCodes := by
  unfold readOctal
  extract_lets digits code
  apply Reading.givesCodes_ok
  have few : digits.length ≤ 2 :=
    Nat.le_trans (List.takeWhile_prefix _).length_le (List.length_take_le 2 after)
  have value (byte : UInt8) : byte.toNat - 0x30 < 0x100 :=
    Nat.lt_of_le_of_lt (Nat.sub_le ..) byte.toNat_lt
  have small : (code : Nat) ≤ 0x10FFFF := by
    have first := value letter
    unfold code
    rcases digits with _ | ⟨second, _ | ⟨third, _ | ⟨fourth, rest⟩⟩⟩
    · simp only [List.foldl_cons, List.foldl_nil]
      show (0 * 8 + (letter.toNat - 0x30) : Nat) ≤ _
      omega
    · have next := value second
      simp only [List.foldl_cons, List.foldl_nil]
      show ((0 * 8 + (letter.toNat - 0x30)) * 8 + (second.toNat - 0x30) : Nat) ≤ _
      omega
    · have next := value second
      have last := value third
      simp only [List.foldl_cons, List.foldl_nil]
      show (((0 * 8 + (letter.toNat - 0x30)) * 8 + (second.toNat - 0x30)) * 8 +
        (third.toNat - 0x30) : Nat) ≤ _
      omega
    · simp at few
  exact (Text.isCodes_cons code []).mpr ⟨small, Text.isCodes_nil⟩

theorem givesCodes_readName (names : CharacterNames) (after : List UInt8) :
    (readName names after).GivesCodes := by
  unfold readName
  split
  · next rest =>
      extract_lets name
      split
      · exact Reading.givesCodes_error _ _
      · split
        · exact Reading.givesCodes_error _ _
        · split
          · next char _ =>
              exact Reading.givesCodes_ok (by simpa using Text.char_le_greatest char) _
          · exact Reading.givesCodes_error _ _
  · exact Reading.givesCodes_error _ _

theorem givesCodes_readEscape (names : CharacterNames) (letter : UInt8) (after : List UInt8) :
    (readEscape names letter after).GivesCodes := by
  have own := byte_le_greatest letter
  have backslash : 0x5C ≤ Code.greatest := by decide
  unfold readEscape
  split
  case h_9 => exact givesCodes_readHex _ _ _
  case h_10 => exact givesCodes_readHex _ _ _
  case h_11 => exact givesCodes_readHex _ _ _
  case h_12 => exact givesCodes_readName _ _
  case h_13 =>
    split
    · exact givesCodes_readOctal _ _
    · split
      · exact Reading.givesCodes_ok (by simp [own]) _
      · exact Reading.givesCodes_ok (by simp [own, backslash]) _
  -- The letters that stand for one control character each, and the escaped line break.
  all_goals exact Reading.givesCodes_ok (by simp [Code.greatest]) _

theorem isCodes_unescapeFrom {names : CharacterNames} {offset : Nat} {bytes : List UInt8}
    {text : Text} (unescaped : unescapeFrom names offset bytes = .ok text) : text.IsCodes := by
  fun_induction unescapeFrom names offset bytes generalizing text with
  | case1 =>
      cases unescaped
      exact Text.isCodes_nil
  | case2 => cases unescaped
  | case3 offset byte =>
      cases unescaped
      simpa using byte_le_greatest byte
  | case4 => cases unescaped
  | case5 offset letter after reading found isFound =>
      rename_i inductionHypothesis
      obtain ⟨rest, later, rfl⟩ := exists_of_map_eq_ok unescaped
      exact (Text.isCodes_append found rest).mpr
        ⟨givesCodes_readEscape names letter after found isFound, inductionHypothesis later⟩
  | case6 offset byte letter after _ inductionHypothesis =>
      obtain ⟨rest, later, rfl⟩ := exists_of_map_eq_ok unescaped
      exact (Text.isCodes_cons byte.toNat rest).mpr
        ⟨byte_le_greatest byte, inductionHypothesis later⟩

/-- What a typed text stands for is made of code points. -/
theorem isCodes_unescape {names : CharacterNames} {raw text : Text} (isRaw : raw.IsCodes)
    (unescaped : unescape names raw = .ok text) : text.IsCodes := by
  unfold unescape at unescaped
  split at unescaped
  · split at unescaped
    · cases unescaped
    · exact isCodes_unescapeFrom (ok_of_mapError unescaped)
  · cases unescaped
    exact isRaw

/-- A delimiter stands for a unit exactly if it can be unescaped to a literal of that unit. -/
theorem unit_eq_ok_iff {names : CharacterNames} {mode : Mode} {raw : Literal} {unit : Code} :
    Delimiter.unit names mode raw = .ok unit ↔
      ∃ literal, plain names raw = .ok literal ∧ mode.unit? literal = .ok unit := by
  unfold Delimiter.unit
  cases plain names raw with
  | error fault => simp [Except.bind]
  | ok literal =>
      cases isUnit : mode.unit? literal with
      | error fault => simp [Except.bind, isUnit]
      | ok code => simp [Except.bind, isUnit]

/-- A delimiter that stands for no unit is refused as such. -/
theorem unit_eq_error {names : CharacterNames} {mode : Mode} {raw : Literal} {fault : Fault}
    (refused : Delimiter.unit names mode raw = .error fault) :
    ∃ cause, fault = .badDelimiter raw cause := by
  unfold Delimiter.unit at refused
  split at refused
  · cases refused
  · next cause _ =>
      cases refused
      exact ⟨cause, rfl⟩

end Delimiter

/-! ## The delimiter of a job -/

namespace Job

/-- A delimiter is a text, or its value was taken out. -/
theorem delimiter_cases (job : Job) :
    (∃ raw : Text, job.delimiter = .text raw) ∨ job.delimiter = .emptyList := by
  unfold delimiter
  split
  · exact .inl ⟨_, rfl⟩
  · exact .inr rfl
  · exact .inl ⟨_, rfl⟩

/-- The delimiter of a job is made of code points. -/
def Typed (job : Job) : Prop :=
  ∀ raw : Text, job.delimiter = .text raw → raw.IsCodes

/-- Only an option has to be looked at: a setting is a string. -/
theorem typed_of_request {job : Job}
    (isCodes : ∀ raw : Text, job.request.delimiter = some (.value raw) → raw.IsCodes) :
    job.Typed := by
  intro raw isRaw
  unfold delimiter at isRaw
  split at isRaw
  · next typed isTyped =>
      cases isRaw
      exact isCodes _ isTyped
  · cases isRaw
  · cases isRaw
    exact Text.isCodes_ofString _

variable {names : CharacterNames} {job : Job} {unit : Code}

/-- A delimiter stands for the one character of its unescaped text. -/
theorem plain_of_unit (isTyped : job.Typed)
    (isUnit : Delimiter.unit names job.mode job.delimiter = .ok unit) :
    unit ≤ Code.greatest ∧ Delimiter.plain names job.delimiter = .ok (.text [unit]) := by
  obtain ⟨literal, isPlain, coerced⟩ := Delimiter.unit_eq_ok_iff.mp isUnit
  rcases job.delimiter_cases with ⟨raw, isText⟩ | isEmptied
  · have isRaw := isTyped raw isText
    rw [isText] at isPlain ⊢
    obtain ⟨text, unescaped, rfl⟩ := exists_of_map_eq_ok isPlain
    have areCodes := Delimiter.isCodes_unescape isRaw unescaped
    rw [(Mode.unit?_text_cases coerced).1] at areCodes isPlain
    exact ⟨((Text.isCodes_cons _ _).mp areCodes).1, isPlain⟩
  · rw [isEmptied] at isPlain
    cases isPlain
    cases isMode : job.mode with
    | bytes =>
        rw [isMode] at coerced
        cases coerced
    | text =>
        rw [isMode] at coerced
        cases coerced

/-- What the delimiter of a job stands for: a scalar, or in a text one lone surrogate. -/
theorem unit_cases (isTyped : job.Typed)
    (isUnit : Delimiter.unit names job.mode job.delimiter = .ok unit) :
    unit.IsScalar ∨ job.mode = .text ∧ unit.isSurrogate = true := by
  obtain ⟨isCode, isPlain⟩ := plain_of_unit isTyped isUnit
  cases isMode : job.mode with
  | text =>
      cases isSurrogate : unit.isSurrogate with
      | true => exact .inr ⟨rfl, rfl⟩
      | false => exact .inl ⟨isCode, isSurrogate⟩
  | bytes =>
      obtain ⟨literal, same, coerced⟩ := Delimiter.unit_eq_ok_iff.mp isUnit
      cases isPlain.symm.trans same
      exact .inl (Code.isScalar_of_ascii ((Mode.unit?_text_cases coerced).2 isMode))

end Job

end RecordScan
