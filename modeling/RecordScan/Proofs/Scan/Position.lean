import RecordScan.Proofs.Utf8.Boundary
import RecordScan.Scan.Source

/-!
Contract: the positions of a source and the units that stand ahead of them.

Owns: what a scan does when it is sequenced; well-formed sources and the
positions that they admit (`Source.Admits`), on scalar boundaries where the mode
is text; the units ahead of a position (`Source.unitsFrom`) and the law of the
unit at a position (`Source.Admits.exists_unitAt`), from which every move of a bare
source follows.

Does not own: loops and layers (`RecordScan.Proofs.Scan.Reading`,
`RecordScan.Proofs.Scan.Visible`).
-/

namespace RecordScan

/-! ## Sequencing -/

namespace Scan

variable {α β : Type}

@[simp] theorem pure_apply (value : α) (position : Nat) :
    (pure value : Scan α) position = (.ok value, position) :=
  rfl

theorem bind_of_ok {scan : Scan α} {next : α → Scan β} {position moved : Nat} {value : α}
    (answer : scan position = (.ok value, moved)) :
    (scan >>= next) position = next value moved := by
  simp only [Bind.bind, answer]

theorem bind_of_error {scan : Scan α} {next : α → Scan β} {position moved : Nat}
    {fault : Fault} (refusal : scan position = (.error fault, moved)) :
    (scan >>= next) position = (.error fault, moved) := by
  simp only [Bind.bind, refusal]

theorem exists_of_bind_eq_ok {scan : Scan α} {next : α → Scan β} {position last : Nat} {found : β}
    (answer : (scan >>= next) position = (.ok found, last)) :
    ∃ value moved, scan position = (.ok value, moved) ∧ next value moved = (.ok found, last) := by
  cases between : scan position with
  | mk result moved =>
      cases result with
      | ok value =>
          rw [bind_of_ok between] at answer
          exact ⟨value, moved, rfl, answer⟩
      | error fault =>
          rw [bind_of_error between] at answer
          cases answer

@[simp] theorem position_bind (next : Nat → Scan β) (position : Nat) :
    (Scan.position >>= next) position = next position position :=
  rfl

theorem ofExcept_bind_of_ok {result : Except Fault α} {value : α} (answer : result = .ok value)
    (next : α → Scan β) (position : Nat) :
    (ofExcept result >>= next) position = next value position := by
  rw [answer]
  rfl

theorem ofExcept_bind_of_error {result : Except Fault α} {fault : Fault}
    (refusal : result = .error fault) (next : α → Scan β) (position : Nat) :
    (ofExcept result >>= next) position = (.error fault, position) := by
  rw [refusal]
  rfl

@[simp] theorem refuse_apply (fault : Fault) (position : Nat) :
    (refuse fault : Scan α) position = (.error fault, position) :=
  rfl

end Scan

/-! ## Well-formed sources -/

/-- The units that stand in buffers of a mode: bytes, or scalars. -/
def Mode.Holds (mode : Mode) (unit : Code) : Prop :=
  match mode with
  | .bytes => unit < 0x100
  | .text => unit.IsScalar

/-- The bytes of a unit in a buffer. -/
def Mode.unitBytes (mode : Mode) (unit : Code) : List UInt8 :=
  match mode with
  | .bytes => [unit.toUInt8]
  | .text => Utf8.encodeCode unit

def Mode.unitWidth (mode : Mode) (unit : Code) : Nat :=
  (mode.unitBytes unit).length

theorem Mode.unitWidth_pos (mode : Mode) (unit : Code) : 0 < mode.unitWidth unit := by
  cases mode with
  | bytes => exact Nat.one_pos
  | text => exact List.length_pos_iff.mpr (Utf8.encodeCode_ne_nil unit)

theorem Mode.encodeUnit_of_holds {mode : Mode} {unit : Code} (holds : mode.Holds unit) :
    mode.encodeUnit unit = .ok (mode.unitBytes unit) := by
  cases mode with
  | bytes => rfl
  | text =>
      have notSurrogate : ¬ unit.isSurrogate = true := by
        rw [holds.2]
        exact Bool.false_ne_true
      exact if_neg notSurrogate

theorem Mode.eq_unitBytes_of_encodeUnit {mode : Mode} {unit : Code} {encoded : List UInt8}
    (answer : mode.encodeUnit unit = .ok encoded) : encoded = mode.unitBytes unit := by
  cases mode with
  | bytes =>
      cases answer
      rfl
  | text =>
      simp only [Mode.encodeUnit] at answer
      split at answer
      · cases answer
      · cases answer
        rfl

theorem Mode.length_le_flatMap_unitBytes (mode : Mode) (units : List Code) :
    units.length ≤ (units.flatMap mode.unitBytes).length := by
  induction units with
  | nil => exact Nat.zero_le _
  | cons unit units inductionHypothesis =>
      have positive : 0 < (mode.unitBytes unit).length := mode.unitWidth_pos unit
      rw [List.flatMap_cons, List.length_append, List.length_cons]
      omega

/-- Two units whose bytes stand at one place are the same. -/
theorem Mode.eq_of_unitBytes_isPrefix {mode : Mode} {first second : Code}
    (firstHolds : mode.Holds first) (secondHolds : mode.Holds second) {bytes : List UInt8}
    (firstStands : mode.unitBytes first <+: bytes)
    (secondStands : mode.unitBytes second <+: bytes) : first = second := by
  obtain ⟨firstRest, firstEq⟩ := firstStands
  obtain ⟨secondRest, secondEq⟩ := secondStands
  cases mode with
  | bytes =>
      rw [← secondEq] at firstEq
      simp only [unitBytes, List.singleton_append, List.cons.injEq] at firstEq
      have sameValue := congrArg UInt8.toNat firstEq.1
      simp only [Nat.toUInt8, UInt8.toNat_ofNat'] at sameValue
      rwa [Nat.mod_eq_of_lt firstHolds, Nat.mod_eq_of_lt secondHolds] at sameValue
  | text =>
      rw [← secondEq] at firstEq
      exact (Utf8.encodeCode_append_inj firstHolds secondHolds firstEq).1

namespace Source

/-- A place where the buffer may be cut. A text may be cut only between its scalars. -/
def Boundary (source : Source) (offset : Nat) : Prop :=
  source.mode = .text → Utf8.ScalarBoundary source.bytes.toList offset

/-- The bounds lie inside the buffer and cut it at boundaries. -/
structure WellFormed (source : Source) : Prop where
  start_le_stop : source.start ≤ source.stop
  stop_le_size : source.stop ≤ source.bytes.size
  start_boundary : source.Boundary source.start
  stop_boundary : source.Boundary source.stop

/-- A position that a cursor over a well-formed source may have. -/
structure Admits (source : Source) (position : Nat) : Prop extends WellFormed source where
  start_le : source.start ≤ position
  le_stop : position ≤ source.stop
  boundary : source.Boundary position

variable {source : Source} {position : Nat}

theorem boundary_congr {first second : Source} (sameMode : first.mode = second.mode)
    (sameBytes : first.bytes = second.bytes) {place : Nat} :
    first.Boundary place ↔ second.Boundary place := by
  unfold Boundary
  rw [sameMode, sameBytes]

theorem WellFormed.boundary_zero (wellFormed : source.WellFormed) : source.Boundary 0 := by
  intro isText
  obtain ⟨before, after, decoded, -⟩ := wellFormed.start_boundary isText
  exact Utf8.scalarBoundary_zero decoded

theorem WellFormed.admits_start (wellFormed : source.WellFormed) : source.Admits source.start :=
  ⟨wellFormed, Nat.le_refl _, wellFormed.start_le_stop, wellFormed.start_boundary⟩

theorem WellFormed.admits_stop (wellFormed : source.WellFormed) : source.Admits source.stop :=
  ⟨wellFormed, wellFormed.start_le_stop, Nat.le_refl _, wellFormed.stop_boundary⟩

theorem mode_ofInput {mode : Mode} {input : Input} {source : Source}
    (accepted : ofInput mode input = .ok source) : source.mode = mode := by
  cases mode with
  | bytes =>
      cases input with
      | bytes value =>
          cases accepted
          rfl
      | text value => cases accepted
  | text =>
      cases input with
      | bytes value =>
          simp only [ofInput, ofUtf8] at accepted
          split at accepted
          all_goals cases accepted
          rfl
      | text value =>
          simp only [ofInput, ofText] at accepted
          split at accepted
          all_goals cases accepted
          rfl

/-- A whole buffer that is accepted is well formed. A text that is given has only code points. -/
theorem wellFormed_ofInput {mode : Mode} {input : Input} {source : Source}
    (codePoints : ∀ text, input = .text text → ∀ code ∈ text, code ≤ Code.greatest)
    (accepted : ofInput mode input = .ok source) : source.WellFormed := by
  have whole {bytes : List UInt8} {text : Text} (decoded : Utf8.decode bytes = .ok text) :
      WellFormed ⟨.text, bytes.toArray, 0, bytes.length⟩ := by
    refine ⟨Nat.zero_le _, by simp, fun _ => ?_, fun _ => ?_⟩
    · exact Utf8.scalarBoundary_zero decoded
    · exact Utf8.scalarBoundary_length decoded
  cases mode with
  | bytes =>
      cases input with
      | bytes value =>
          cases accepted
          exact ⟨Nat.zero_le _, by simp [ofBytes], nofun, nofun⟩
      | text value => cases accepted
  | text =>
      cases input with
      | bytes value =>
          simp only [ofInput, ofUtf8] at accepted
          split at accepted
          · next decoded =>
              cases accepted
              exact whole decoded
          · cases accepted
      | text value =>
          simp only [ofInput, ofText] at accepted
          split at accepted
          · next encoded =>
              cases accepted
              exact whole (Utf8.decode_eq_ok_iff.mpr
                (Utf8.eq_encodeAll_of_encode (codePoints value rfl) encoded))
          · cases accepted

/-! ## The units ahead -/

/-- The units between a position and the end of the bounds. -/
def unitsFrom (source : Source) (position : Nat) : List Code :=
  let bytes := Utf8.slice source.bytes position source.stop
  match source.mode with
  | .bytes => bytes.map UInt8.toNat
  | .text =>
      match Utf8.decode bytes with
      | .ok text => text
      | .error _ => []

private theorem unitsFrom_of_split (before after : Text) {middle : Text}
    (isText : source.mode = .text) (scalars : middle.IsScalar)
    (split : source.bytes.toList =
      Utf8.encodeAll before ++ (Utf8.encodeAll middle ++ Utf8.encodeAll after))
    (width : source.stop = (Utf8.encodeAll before).length + (Utf8.encodeAll middle).length) :
    source.unitsFrom (Utf8.encodeAll before).length = middle := by
  have decoded : Utf8.decode (Utf8.encodeAll middle) = .ok middle :=
    Utf8.decode_eq_ok_iff.mpr ⟨scalars, rfl⟩
  simp only [unitsFrom, isText]
  rw [width, Utf8.slice_of_split split, decoded]

/-- A text that becomes a source is the units of that source. -/
theorem unitsFrom_ofText {text : Text} {source : Source}
    (codePoints : ∀ code ∈ text, code ≤ Code.greatest) (accepted : ofText text = .ok source) :
    source.mode = .text ∧ source.unitsFrom 0 = text := by
  unfold ofText at accepted
  split at accepted
  · next bytes encoded =>
      cases accepted
      obtain ⟨scalars, bytesEq⟩ := Utf8.eq_encodeAll_of_encode codePoints encoded
      refine ⟨rfl, unitsFrom_of_split [] [] rfl scalars ?_ ?_⟩
      · simp [bytesEq]
      · simp [bytesEq]
  · cases accepted

/-- A text in which every code point has an encoding becomes a source. -/
theorem ofText_eq {text : Text} (scalars : text.IsScalar) :
    ofText text =
      .ok ⟨.text, (Utf8.encodeAll text).toArray, 0, (Utf8.encodeAll text).length⟩ := by
  have noSurrogate : text.hasSurrogate = false := by
    rw [Text.hasSurrogate, List.any_eq_false]
    intro code member
    simp [(scalars code member).2]
  simp [ofText, Utf8.encode, noSurrogate]

theorem unitsFrom_stop (source : Source) : source.unitsFrom source.stop = [] := by
  have empty : Utf8.slice source.bytes source.stop source.stop = [] := by
    simp [Utf8.slice_eq]
  have decoded : Utf8.decode [] = .ok [] := Utf8.decode_eq_ok_iff.mpr ⟨by simp, rfl⟩
  cases isMode : source.mode with
  | bytes => simp [unitsFrom, isMode, empty]
  | text => simp [unitsFrom, isMode, empty, decoded]

/-- What stands at a position before the end: a unit with its bytes, and past them another
position with the other units ahead. -/
structure UnitAt (source : Source) (position : Nat) (unit : Code) : Prop where
  holds : source.mode.Holds unit
  stands : source.mode.unitBytes unit <+: source.bytes.toList.drop position
  unitAt_eq : source.unitAt position = .ok (unit, source.mode.unitWidth unit)
  admits_next : source.Admits (position + source.mode.unitWidth unit)
  unitsFrom_eq : source.unitsFrom position =
    unit :: source.unitsFrom (position + source.mode.unitWidth unit)

private theorem Admits.unitAt_of_bytes (admits : source.Admits position)
    (isBytes : source.mode = .bytes) (before : position < source.stop) :
    ∃ unit, source.UnitAt position unit := by
  have inside : position < source.bytes.size := Nat.lt_of_lt_of_le before admits.stop_le_size
  have byteAt : source.bytes[position]? = some source.bytes[position] :=
    Array.getElem?_eq_getElem inside
  have dropEq : source.bytes.toList.drop position =
      source.bytes[position] :: source.bytes.toList.drop (position + 1) := by
    rw [List.drop_eq_getElem_cons (by simpa using inside), Array.getElem_toList]
  have widthEq : source.mode.unitWidth source.bytes[position].toNat = 1 := by
    rw [isBytes]
    rfl
  refine ⟨source.bytes[position].toNat, ?_, ?_, ?_, ?_, ?_⟩
  · rw [isBytes]
    exact UInt8.toNat_lt source.bytes[position]
  · rw [isBytes, dropEq]
    simp [Mode.unitBytes, Nat.toUInt8]
  · rw [widthEq]
    simp only [unitAt, isBytes, byteAt]
  · have notText : source.Boundary (position + 1) := by
      intro isText
      rw [isBytes] at isText
      cases isText
    rw [widthEq]
    exact ⟨admits.toWellFormed, Nat.le_succ_of_le admits.start_le, before, notText⟩
  · rw [widthEq]
    simp only [unitsFrom, isBytes, Utf8.slice_eq, dropEq]
    have leftEq : source.stop - position = source.stop - (position + 1) + 1 := by omega
    rw [leftEq, List.take_succ_cons, List.map_cons]

private theorem Admits.unitAt_of_text (admits : source.Admits position)
    (isText : source.mode = .text) (before : position < source.stop) :
    ∃ unit, source.UnitAt position unit := by
  obtain ⟨earlier, ahead, later, scalars, split, positionEq, stopEq⟩ :=
    Utf8.exists_split_of_boundaries (admits.boundary isText) (admits.stop_boundary isText)
      admits.le_stop
  cases ahead with
  | nil =>
      simp only [Utf8.encodeAll_nil, List.length_nil] at stopEq
      omega
  | cons unit ahead =>
      have widthEq : source.mode.unitWidth unit = (Utf8.encodeCode unit).length := by
        rw [isText]
        rfl
      have nextEq : position + (Utf8.encodeCode unit).length =
          (Utf8.encodeAll (earlier ++ [unit])).length := by
        simp [positionEq]
      have unitSplit : source.bytes.toList = Utf8.encodeAll earlier ++
          (Utf8.encodeCode unit ++ (Utf8.encodeAll ahead ++ Utf8.encodeAll later)) := by
        rw [split, Utf8.encodeAll_cons, List.append_assoc]
      have nextSplit : source.bytes.toList = Utf8.encodeAll (earlier ++ [unit]) ++
          (Utf8.encodeAll ahead ++ Utf8.encodeAll later) := by
        simp [split]
      simp only [Text.isScalar_append, List.cons_append, Text.isScalar_cons] at scalars
      rw [Utf8.encodeAll_cons, List.length_append] at stopEq
      refine ⟨unit, ?_, ?_, ?_, ?_, ?_⟩
      · rw [isText]
        exact scalars.2.1
      · rw [isText, unitSplit, positionEq, List.drop_left]
        exact List.prefix_append _ _
      · have fits : (Utf8.encodeAll earlier).length + (Utf8.encodeCode unit).length ≤
            source.stop := by omega
        have read := Utf8.decodeScalar_of_split scalars.2.1 unitSplit fits
        rw [← positionEq] at read
        rw [widthEq]
        simp only [unitAt, isText, read]
      · rw [widthEq]
        refine ⟨admits.toWellFormed, ?_, ?_, fun _ => ?_⟩
        · exact Nat.le_trans admits.start_le (Nat.le_add_right _ _)
        · omega
        · rw [← Utf8.encodeAll_append ahead later] at nextSplit
          rw [nextEq]
          exact Utf8.scalarBoundary_of_split (by simp [scalars]) nextSplit
      · rw [widthEq, nextEq, unitsFrom_of_split _ later isText scalars.2.2.1 nextSplit (by omega),
          positionEq]
        apply unitsFrom_of_split earlier later isText (by simp [scalars]) split
        rw [Utf8.encodeAll_cons, List.length_append]
        omega

/-- Before the end of its bounds a source has a unit at every position it admits. -/
theorem Admits.exists_unitAt (admits : source.Admits position)
    (before : position < source.stop) : ∃ unit, source.UnitAt position unit := by
  cases isMode : source.mode with
  | bytes => exact admits.unitAt_of_bytes isMode before
  | text => exact admits.unitAt_of_text isMode before

/-- The bytes of the units ahead reach from a position to the end. -/
theorem Admits.add_unitsFrom_bytes (admits : source.Admits position) :
    position + ((source.unitsFrom position).flatMap source.mode.unitBytes).length =
      source.stop := by
  -- The induction is on the bytes left, since each unit takes at least one of them.
  induction left : source.stop - position using Nat.strongRecOn generalizing position with
  | ind left inductionHypothesis =>
      rcases Nat.lt_or_eq_of_le admits.le_stop with before | atEnd
      · obtain ⟨unit, found⟩ := admits.exists_unitAt before
        have positive := source.mode.unitWidth_pos unit
        have next := inductionHypothesis _ (by omega) found.admits_next rfl
        rw [found.unitsFrom_eq, List.flatMap_cons, List.length_append]
        show position + (source.mode.unitWidth unit + _) = _
        omega
      · rw [atEnd, unitsFrom_stop]
        rfl

/-- A position is determined by the units ahead of it. -/
theorem Admits.eq_of_unitsFrom_eq {other : Nat} (admits : source.Admits position)
    (otherAdmits : source.Admits other)
    (same : source.unitsFrom position = source.unitsFrom other) : position = other := by
  have width := admits.add_unitsFrom_bytes
  have otherWidth := otherAdmits.add_unitsFrom_bytes
  rw [same] at width
  omega

theorem Admits.length_unitsFrom_le (admits : source.Admits position) :
    (source.unitsFrom position).length ≤ source.stop - position := by
  have width := admits.add_unitsFrom_bytes
  have atLeast := source.mode.length_le_flatMap_unitBytes (source.unitsFrom position)
  omega

/-- The bytes ahead of a position in a text decode to the units ahead. -/
theorem Admits.decodeFrom_slice (admits : source.Admits position) (isText : source.mode = .text)
    (offset : Nat) :
    Utf8.decodeFrom offset (Utf8.slice source.bytes position source.stop) =
      .ok (source.unitsFrom position) := by
  obtain ⟨text, decoded⟩ := Utf8.decodeFrom_slice (admits.boundary isText)
    (admits.stop_boundary isText) admits.le_stop offset
  have wholeDecoded : Utf8.decode (Utf8.slice source.bytes position source.stop) = .ok text :=
    Utf8.decode_eq_ok_iff.mpr (Utf8.decodeFrom_eq_ok_iff.mp decoded)
  simp only [unitsFrom, isText, wholeDecoded, decoded]

/-! ## Moves of a bare source -/

theorem UnitAt.lt_stop {unit : Code} (found : source.UnitAt position unit) :
    position < source.stop := by
  have positive := source.mode.unitWidth_pos unit
  have within := found.admits_next.le_stop
  omega

theorem UnitAt.peek_eq {unit : Code} (found : source.UnitAt position unit) :
    source.peek position = (.ok (some unit), position) := by
  unfold peek
  rw [Scan.position_bind, if_neg (Nat.not_le.mpr found.lt_stop)]
  exact Scan.ofExcept_bind_of_ok found.unitAt_eq _ _

theorem UnitAt.advance_eq {unit : Code} (found : source.UnitAt position unit) :
    source.advance position = (.ok (some unit), position + source.mode.unitWidth unit) := by
  unfold advance
  rw [Scan.position_bind, if_neg (Nat.not_le.mpr found.lt_stop)]
  exact Scan.ofExcept_bind_of_ok found.unitAt_eq _ _

theorem peek_stop (source : Source) : source.peek source.stop = (.ok none, source.stop) := by
  unfold peek
  rw [Scan.position_bind, if_pos (Nat.le_refl _)]
  rfl

theorem Admits.peek_eq (admits : source.Admits position) :
    source.peek position = (.ok (source.unitsFrom position).head?, position) := by
  rcases Nat.lt_or_eq_of_le admits.le_stop with before | atEnd
  · obtain ⟨unit, found⟩ := admits.exists_unitAt before
    rw [found.peek_eq, found.unitsFrom_eq]
    rfl
  · rw [atEnd, source.peek_stop, unitsFrom_stop]
    rfl

theorem Admits.advance_of_lt (admits : source.Admits position)
    (before : position < source.stop) :
    ∃ unit, source.UnitAt position unit ∧
      source.advance position = (.ok (some unit), position + source.mode.unitWidth unit) := by
  obtain ⟨unit, found⟩ := admits.exists_unitAt before
  exact ⟨unit, found, found.advance_eq⟩

theorem advance_stop (source : Source) : source.advance source.stop = (.ok none, source.stop) := by
  unfold advance
  rw [Scan.position_bind, if_pos (Nat.le_refl _)]
  rfl

/-! ## Cutting a buffer -/

/-- The check of an offset is passed exactly at the boundaries. -/
theorem WellFormed.checkOffset_cases (wellFormed : source.WellFormed) (offset : Nat)
    (inside : offset ≤ source.bytes.size) :
    source.checkOffset offset = .ok () ∧ source.Boundary offset ∨
      source.checkOffset offset = .error (.utf8 offset .insideSequence) ∧
        ¬ source.Boundary offset := by
  unfold checkOffset
  cases isMode : source.mode with
  | bytes =>
      left
      refine ⟨rfl, fun isText => ?_⟩
      rw [isMode] at isText
      cases isText
  | text =>
      obtain ⟨before, after, decoded, -⟩ := wellFormed.stop_boundary isMode
      have exactTest := Utf8.isBoundary_iff decoded inside
      by_cases boundary : Utf8.isBoundary source.bytes offset = true
      · left
        exact ⟨if_pos boundary, fun _ => exactTest.mp boundary⟩
      · right
        exact ⟨if_neg boundary, fun isBoundary => boundary (exactTest.mpr (isBoundary isMode))⟩

/-- Returning to a place: either it is a position of the source, or it is refused and the
position stays. -/
theorem WellFormed.restore_cases (wellFormed : source.WellFormed) (target : Int)
    (position : Nat) :
    (∃ place : Nat, target = place ∧ source.Admits place ∧
      source.restore target position = (.ok (), place)) ∨
    (¬ ((source.start : Int) ≤ target ∧ target ≤ source.stop) ∧
      source.restore target position =
        (.error (.positionOutside target source.start source.stop), position)) ∨
    (∃ place : Nat, target = place ∧ ¬ source.Boundary place ∧
      source.restore target position = (.error (.utf8 target .insideSequence), position)) := by
  unfold restore
  by_cases inBounds : (source.start : Int) ≤ target ∧ target ≤ source.stop
  · obtain ⟨place, rfl⟩ : ∃ place : Nat, target = place := ⟨target.toNat, by omega⟩
    have inside := wellFormed.stop_le_size
    rw [if_pos inBounds, Int.toNat_natCast]
    rcases wellFormed.checkOffset_cases place (by omega) with
      ⟨passed, boundary⟩ | ⟨failed, notBoundary⟩
    · left
      refine ⟨place, rfl, ⟨wellFormed, by omega, by omega, boundary⟩, ?_⟩
      exact Scan.ofExcept_bind_of_ok passed _ _
    · right; right
      refine ⟨place, rfl, notBoundary, ?_⟩
      exact Scan.ofExcept_bind_of_error failed _ _
  · right; left
    rw [if_neg inBounds, Scan.refuse_apply]
    exact ⟨inBounds, rfl⟩

theorem Admits.restore_eq {target : Nat} (admits : source.Admits target) (position : Nat) :
    source.restore target position = (.ok (), target) := by
  rcases admits.toWellFormed.restore_cases target position with
    ⟨place, isPlace, -, answer⟩ | ⟨outside, -⟩ | ⟨place, isPlace, notBoundary, -⟩
  · rw [answer, Int.ofNat.inj isPlace]
  · exact absurd ⟨Int.ofNat_le.mpr admits.start_le, Int.ofNat_le.mpr admits.le_stop⟩ outside
  · exact absurd (Int.ofNat.inj isPlace ▸ admits.boundary) notBoundary

/-- The same buffer with other bounds. -/
def narrowed (source : Source) (start stop : Nat) : Source :=
  { source with start := start, stop := stop }

/-- Narrowing the bounds: either both ends are boundaries inside the old ones and the result is
well formed, or it is refused, at an end inside a scalar by name. -/
theorem WellFormed.bounded_cases (wellFormed : source.WellFormed) (first last : Int) :
    (∃ start stop : Nat, first = start ∧ last = stop ∧
      (source.narrowed start stop).WellFormed ∧
      source.bounded first last = .ok (source.narrowed start stop)) ∨
    (¬ ((source.start : Int) ≤ first ∧ first ≤ last ∧ last ≤ source.stop) ∧
      source.bounded first last =
        .error (.boundsOutside first last source.start source.stop)) ∨
    (∃ place : Nat, (first = place ∨ last = place) ∧ ¬ source.Boundary place ∧
      source.bounded first last = .error (.utf8 place .insideSequence)) := by
  unfold bounded
  by_cases inBounds : (source.start : Int) ≤ first ∧ first ≤ last ∧ last ≤ source.stop
  · obtain ⟨start, rfl⟩ : ∃ start : Nat, first = start := ⟨first.toNat, by omega⟩
    obtain ⟨stop, rfl⟩ : ∃ stop : Nat, last = stop := ⟨last.toNat, by omega⟩
    have inside := wellFormed.stop_le_size
    rw [if_pos inBounds, Int.toNat_natCast, Int.toNat_natCast]
    rcases wellFormed.checkOffset_cases start (by omega) with
      ⟨startPassed, startBoundary⟩ | ⟨startFailed, notBoundary⟩
    · rcases wellFormed.checkOffset_cases stop (by omega) with
        ⟨stopPassed, stopBoundary⟩ | ⟨stopFailed, notBoundary⟩
      · left
        refine ⟨start, stop, rfl, rfl, ?_, ?_⟩
        · exact ⟨by show start ≤ stop; omega, by show stop ≤ source.bytes.size; omega,
            startBoundary, stopBoundary⟩
        · rw [startPassed, stopPassed]
          rfl
      · right; right
        refine ⟨stop, .inr rfl, notBoundary, ?_⟩
        rw [startPassed, stopFailed]
        rfl
    · right; right
      refine ⟨start, .inl rfl, notBoundary, ?_⟩
      rw [startFailed]
      rfl
  · right; left
    rw [if_neg inBounds]
    exact ⟨inBounds, rfl⟩

section Narrowed

variable {start stop : Nat} (startAdmits : source.Admits start) (stopAdmits : source.Admits stop)
  (ordered : start ≤ stop)

include startAdmits stopAdmits ordered

theorem Admits.wellFormed_narrowed : (source.narrowed start stop).WellFormed :=
  ⟨ordered, Nat.le_trans stopAdmits.le_stop stopAdmits.stop_le_size, startAdmits.boundary,
    stopAdmits.boundary⟩

theorem Admits.bounded_eq : source.bounded start stop = .ok (source.narrowed start stop) := by
  rcases startAdmits.toWellFormed.bounded_cases start stop with
    ⟨first, last, firstEq, lastEq, -, answer⟩ | ⟨outside, -⟩ | ⟨place, isEnd, notBoundary, -⟩
  · rw [answer, Int.ofNat.inj firstEq, Int.ofNat.inj lastEq]
  · exact absurd ⟨Int.ofNat_le.mpr startAdmits.start_le, Int.ofNat_le.mpr ordered,
      Int.ofNat_le.mpr stopAdmits.le_stop⟩ outside
  · rcases isEnd with isStart | isStop
    · exact absurd (Int.ofNat.inj isStart ▸ startAdmits.boundary) notBoundary
    · exact absurd (Int.ofNat.inj isStop ▸ stopAdmits.boundary) notBoundary

/-- The units up to a place inside the bounds come before those from there on. -/
theorem Admits.unitsFrom_narrowed :
    source.unitsFrom start =
      (source.narrowed start stop).unitsFrom start ++ source.unitsFrom stop := by
  have sliceEq : Utf8.slice source.bytes start source.stop =
      Utf8.slice source.bytes start stop ++ Utf8.slice source.bytes stop source.stop :=
    Utf8.slice_append source.bytes ordered stopAdmits.le_stop
  cases isMode : source.mode with
  | bytes => simp only [unitsFrom, narrowed, isMode, sliceEq, List.map_append]
  | text =>
      have narrowedAdmits := (startAdmits.wellFormed_narrowed stopAdmits ordered).admits_start
      have first : Utf8.decodeFrom 0 (Utf8.slice source.bytes start stop) =
          .ok ((source.narrowed start stop).unitsFrom start) :=
        narrowedAdmits.decodeFrom_slice isMode 0
      have second := stopAdmits.decodeFrom_slice isMode 0
      have whole := startAdmits.decodeFrom_slice isMode 0
      obtain ⟨firstScalars, firstEq⟩ := Utf8.decodeFrom_eq_ok_iff.mp first
      obtain ⟨secondScalars, secondEq⟩ := Utf8.decodeFrom_eq_ok_iff.mp second
      have joined : Utf8.decodeFrom 0 (Utf8.slice source.bytes start source.stop) =
          .ok ((source.narrowed start stop).unitsFrom start ++ source.unitsFrom stop) := by
        rw [sliceEq, Utf8.decodeFrom_eq_ok_iff, Utf8.encodeAll_append, ← secondEq, ← firstEq]
        exact ⟨(Text.isScalar_append _ _).mpr ⟨firstScalars, secondScalars⟩, rfl⟩
      rw [whole] at joined
      exact Except.ok.inj joined

/-- A walk over the leading run of units that pass a test has passed over just that run. -/
theorem Admits.unitsFrom_narrowed_of_dropWhile {test : Code → Bool}
    (ahead : source.unitsFrom stop = (source.unitsFrom start).dropWhile test) :
    (source.narrowed start stop).unitsFrom start = (source.unitsFrom start).takeWhile test := by
  have joined : (source.unitsFrom start).takeWhile test ++
      (source.unitsFrom start).dropWhile test = source.unitsFrom start :=
    List.takeWhile_append_dropWhile
  rw [← ahead] at joined
  have cut := startAdmits.unitsFrom_narrowed stopAdmits ordered
  exact List.append_cancel_right (cut.symm.trans joined.symm)

end Narrowed

end Source

end RecordScan
