import RecordScan.Proofs.Grammar.KeyValue
import RecordScan.Proofs.Scan.Alike
import RecordScan.Proofs.Scan.Landing

/-!
Contract: lines whose ends are ignored are read as if they had none.

Owns: the places from which on a view ignores nothing (`View.Clear`), where it does what its
source does; the pieces of a text whose lines end in ignored units and a delimiter, which are
the lines; and the law that lines ending in a carriage return and a line feed are read, with
carriage returns ignored, as lines ending in a line feed.

What is recorded of a line keeps ignored units, so a line would show a carriage return that
fell into it. None does: a segment ends right behind its last unit that is not ignored.
-/

namespace RecordScan

namespace View

open Scan (Alike)

variable {view : View} {position : Nat}

/-! ## Where nothing is ignored -/

/-- A place of a view from which on nothing is ignored. -/
structure Clear (view : View) (position : Nat) : Prop where
  placed : view.Placed position
  shown : ∀ unit ∈ view.source.unitsFrom position, .ignoring unit ∉ view.layers

theorem Clear.onward (clear : view.Clear position) {moved : Nat} (placed : view.Placed moved)
    (forward : position ≤ moved) : view.Clear moved := by
  refine ⟨placed, fun unit member => clear.shown unit ?_⟩
  rw [clear.placed.1.unitsFrom_narrowed placed.1 forward]
  exact List.mem_append_right _ member

section Bare

variable (unstopped : .stopped ∉ view.layers)

include unstopped

theorem Clear.visible_eq (clear : view.Clear position) :
    view.visible position = view.source.unitsFrom position := by
  rw [visible, visibleThrough_eq_filter unstopped, List.filter_eq_self]
  simpa using clear.shown

/-- What answers and leaves the same on the units that a view shows and on those of its source is
alike where nothing is ignored. -/
theorem alike_of_leaves {α : Type} {scan bare : Scan α} {answer : List Code → α}
    {rest : List Code → List Code}
    (leaves : ∀ {place}, view.Placed place →
      view.Leaves scan place (answer (view.visible place)) (rest (view.visible place)))
    (bareLeaves : ∀ {place}, Placed ⟨view.source, []⟩ place →
      Leaves ⟨view.source, []⟩ bare place (answer (visible ⟨view.source, []⟩ place))
        (rest (visible ⟨view.source, []⟩ place))) :
    Alike view.Clear bare scan := by
  intro place clear
  obtain ⟨moved, taken, movedPlaced, forward, ahead⟩ := leaves clear.placed
  obtain ⟨other, bareTaken, otherPlaced, -, bareAhead⟩ := bareLeaves ⟨clear.placed.1, nofun⟩
  have movedClear := clear.onward movedPlaced forward
  rw [clear.visible_eq unstopped] at taken
  rw [clear.visible_eq unstopped, movedClear.visible_eq unstopped] at ahead
  obtain rfl : moved = other :=
    movedPlaced.1.eq_of_unitsFrom_eq otherPlaced.1 (ahead.trans bareAhead.symm)
  exact ⟨taken.trans bareTaken.symm, bareTaken ▸ movedClear⟩

/-- A line of which nothing is ignored is read as it stands. -/
theorem Clear.keyValue_eq (clear : view.Clear position) (isText : view.source.mode = .text) :
    view.keyValue position = (.ok (view.source.lineFrom position), view.source.stop) := by
  have ascii : ':'.toNat < 0x80 := by decide
  have advances : Alike view.Clear (advance ⟨view.source, []⟩) view.advance :=
    alike_of_leaves unstopped view.reads.advance_leaves
      (reads ⟨view.source, []⟩).advance_leaves
  have consumes : Alike view.Clear (consume ⟨view.source, []⟩) view.consume :=
    @alike_of_leaves view unstopped _ _ _ (fun _ => ()) (fun _ => []) consume_leaves consume_leaves
  have searches : Alike view.Clear (consumeUntil ⟨view.source, []⟩ (character ':'))
      (view.consumeUntil (character ':')) :=
    @alike_of_leaves view unstopped _ _ _ (fun _ => ())
      (List.dropWhile fun unit => !(unit == ':'.toNat))
      (consumeUntil_leaves (character_test? ':' _ ascii) (character_searchable ':' _ ascii))
      (consumeUntil_leaves (character_test? ':' _ ascii) (character_searchable ':' _ ascii))
  have alike := @keyValue_alike view.Clear ⟨view.source, []⟩ view rfl advances consumes searches
  rw [(alike position clear).1]
  exact View.keyValue_eq clear.placed.1 isText

end Bare

end View

/-! ## The lines of a text -/

namespace Text

/-- Lines with an ending behind each of them. -/
def terminated (ending : Text) (lines : List Text) : Text :=
  lines.flatMap (· ++ ending)

/-- The pieces of a text between delimiters, without what is ignored at their ends. -/
def pieces (feed : Code) (ignores : Code → Bool) (text : Text) : List Text :=
  (text.splitOnP fun unit => unit == feed && !ignores unit).map (List.rdropWhile ignores)

/-- A line that holds neither the delimiter nor a unit that is ignored. -/
def IsPlain (feed : Code) (ignores : Code → Bool) (line : Text) : Prop :=
  feed ∉ line ∧ ∀ unit ∈ line, ignores unit = false

section Pieces

variable {feed : Code} {ignores : Code → Bool} {skipped line : Text} {lines : List Text}

theorem IsPlain.rdropWhile_eq (plain : line.IsPlain feed ignores) :
    line.rdropWhile ignores = line := by
  rw [List.rdropWhile_eq_self_iff]
  intro nonempty
  simp [plain.2 _ (List.getLast_mem nonempty)]

theorem IsPlain.delimits_eq_false (plain : line.IsPlain feed ignores) :
    ∀ unit ∈ line, (unit == feed && !ignores unit) = false := by
  intro unit member
  have differs : unit ≠ feed := fun same => plain.1 (same ▸ member)
  simp [differs]

theorem IsPlain.pieces_eq (plain : line.IsPlain feed ignores) :
    pieces feed ignores line = [line] := by
  rw [pieces, List.splitOnP_eq_singleton plain.delimits_eq_false, List.map_singleton,
    plain.rdropWhile_eq]

variable (shown : ignores feed = false) (ignored : ∀ unit ∈ skipped, ignores unit = true)

include shown ignored

/-- A line that ends in ignored units and the delimiter is the first piece. -/
theorem IsPlain.pieces_append (plain : line.IsPlain feed ignores) (rest : Text) :
    pieces feed ignores (line ++ (skipped ++ [feed]) ++ rest) =
      line :: pieces feed ignores rest := by
  have delimits : (feed == feed && !ignores feed) = true := by simp [shown]
  have clear : ∀ unit ∈ line ++ skipped, (unit == feed && !ignores unit) = false := by
    intro unit member
    rcases List.mem_append.mp member with inLine | isSkipped
    · exact plain.delimits_eq_false unit inLine
    · simp [ignored unit isSkipped]
  have split : line ++ (skipped ++ [feed]) ++ rest = (line ++ skipped) ++ feed :: rest := by simp
  rw [pieces, split, List.splitOnP_append_cons_of_forall_mem clear feed delimits, List.map_cons,
    List.rdropWhile_append_of_forall ignored, plain.rdropWhile_eq]
  rfl

theorem pieces_intercalate (nonempty : lines ≠ [])
    (plain : ∀ line ∈ lines, line.IsPlain feed ignores) :
    pieces feed ignores ((skipped ++ [feed]).intercalate lines) = lines := by
  induction lines with
  | nil => exact absurd rfl nonempty
  | cons line lines inductionHypothesis =>
      have isPlain := plain line (List.mem_cons_self ..)
      cases lines with
      | nil => rw [List.intercalate_singleton, isPlain.pieces_eq]
      | cons second others =>
          rw [List.intercalate_cons_cons, isPlain.pieces_append shown ignored,
            inductionHypothesis (List.cons_ne_nil _ _) fun other member =>
              plain other (List.mem_cons_of_mem line member)]

/-- Where the last line is terminated too, an empty piece follows it. -/
theorem pieces_terminated (plain : ∀ line ∈ lines, line.IsPlain feed ignores) :
    pieces feed ignores (terminated (skipped ++ [feed]) lines) = lines ++ [[]] := by
  induction lines with
  | nil => exact IsPlain.pieces_eq ⟨List.not_mem_nil, nofun⟩
  | cons line lines inductionHypothesis =>
      have isPlain := plain line (List.mem_cons_self ..)
      rw [terminated, List.flatMap_cons, isPlain.pieces_append shown ignored, List.cons_append]
      exact congrArg (line :: ·) (inductionHypothesis fun other member =>
        plain other (List.mem_cons_of_mem line member))

end Pieces

theorem isScalar_terminated {ending : Text} (scalar : ending.IsScalar) {lines : List Text}
    (scalars : ∀ line ∈ lines, line.IsScalar) : IsScalar (terminated ending lines) := by
  induction lines with
  | nil => exact isScalar_nil
  | cons line lines inductionHypothesis =>
      have joined := inductionHypothesis fun other member =>
        scalars other (List.mem_cons_of_mem line member)
      rw [terminated, List.flatMap_cons, isScalar_append, isScalar_append]
      exact ⟨⟨scalars line (List.mem_cons_self ..), scalar⟩, joined⟩

end Text

/-! ## Reading the lines -/

/-- A text of scalars becomes a source whose units are the text. -/
theorem Source.exists_ofText {text : Text} (scalars : text.IsScalar) :
    ∃ source, ofText text = .ok source ∧ source.WellFormed ∧ source.mode = .text ∧
      source.unitsFrom source.start = text := by
  have accepted := ofText_eq scalars
  have codePoints : ∀ code ∈ text, code ≤ Code.greatest := fun code member =>
    (scalars code member).1
  obtain ⟨isText, units⟩ := unitsFrom_ofText codePoints accepted
  have wellFormed := @wellFormed_ofInput .text (.text text) _
    (by rintro _ ⟨rfl⟩; exact codePoints) accepted
  exact ⟨_, accepted, wellFormed, isText, units⟩

namespace View

variable {source : Source} {layers : List Layer}

/-- The keys and values of the lines of a view. -/
def linePairs (view : View) : Except Fault (List (Text × Text)) := do
  let records ← (view.keyValues lineBreak view.source.start).1
  return records.map fun record => (record.key, record.value)

/-- Where no piece of a text holds a unit that is ignored, its lines are read as the pieces. -/
theorem linePairs_eq (onlyIgnores : OnlyIgnores ⟨source, layers⟩)
    (wellFormed : source.WellFormed) (isText : source.mode = .text) {lines : List Text}
    (arePieces : Text.pieces '\n'.toNat (ignores ⟨source, layers⟩)
      (source.unitsFrom source.start) = lines)
    (plain : ∀ line ∈ lines, ∀ unit ∈ line, .ignoring unit ∉ layers) :
    linePairs ⟨source, layers⟩ = .ok (lines.map Text.keyAndValue) := by
  let view : View := ⟨source, layers⟩
  have unstopped : .stopped ∉ view.layers := onlyIgnores.unstopped
  have placed : view.Placed source.start := onlyIgnores.placed wellFormed.admits_start
  have ascii : '\n'.toNat < 0x80 := by decide
  have matched : lineBreak.test? view.mode = .ok (· == '\n'.toNat) :=
    character_test? '\n' view.mode ascii
  have finds : view.Finds lineBreak := .inr (character_searchable '\n' view.mode ascii)
  obtain ⟨segments, last, handsOut, divides⟩ := exists_divides unstopped finds matched placed
  have units : (segments.map fun segment => segment.source.unitsFrom segment.source.start) =
      lines :=
    (handsOut.pieces unstopped finds matched placed rfl).1.trans arePieces
  have visits : ∀ segment ∈ segments, (keyValue segment segment.source.start).1 =
      .ok (segment.source.lineFrom segment.source.start) := by
    intro segment member
    have isLine : segment.source.unitsFrom segment.source.start ∈ lines :=
      units ▸ List.mem_map_of_mem member
    obtain ⟨first, last, rfl, -, ordered, firstAdmits, lastAdmits⟩ := divides.part_of_mem member
    have clear : (view.part first last).Clear first := by
      refine ⟨placed_part firstAdmits lastAdmits ordered, fun unit inLine => ?_⟩
      rw [ignoring_mem_part]
      exact plain _ isLine unit inLine
    exact congrArg Prod.fst (clear.keyValue_eq (by simp [part, isKept]) isText)
  have swept := handsOut.sweep_eq visits (divides.length_le unstopped placed)
  have read : view.keyValues lineBreak view.source.start =
      (.ok (segments.map fun segment => segment.source.lineFrom segment.source.start), last) := by
    have isView : view.source.start = source.start := rfl
    simp only [keyValues, matched, isView, swept]
  calc
    linePairs view =
        .ok ((segments.map fun segment => segment.source.lineFrom segment.source.start).map
          fun record => (record.key, record.value)) := by
          rw [linePairs, read]
          rfl
    _ = .ok (lines.map Text.keyAndValue) := by
          rw [← units, List.map_map, List.map_map]
          rfl

/-- Lines that end in ignored units and a line feed are read as the lines. Where the last line is
terminated too, an empty line follows it. -/
theorem linePairs_of_lines (onlyIgnores : ∀ layer ∈ layers, ∃ unit, layer = .ignoring unit)
    {skipped : Text} (ignored : ∀ unit ∈ skipped, .ignoring unit ∈ layers)
    (shown : .ignoring '\n'.toNat ∉ layers) (skippedScalars : skipped.IsScalar)
    {lines : List Text} (scalars : ∀ line ∈ lines, line.IsScalar)
    (plain : ∀ line ∈ lines, '\n'.toNat ∉ line ∧ ∀ unit ∈ line, .ignoring unit ∉ layers) :
    (lines ≠ [] → ∃ source,
      Source.ofText ((skipped ++ ['\n'.toNat]).intercalate lines) = .ok source ∧
      linePairs ⟨source, layers⟩ = .ok (lines.map Text.keyAndValue)) ∧
    ∃ source, Source.ofText (Text.terminated (skipped ++ ['\n'.toNat]) lines) = .ok source ∧
      linePairs ⟨source, layers⟩ = .ok ((lines ++ [[]]).map Text.keyAndValue) := by
  have feed : Code.IsScalar '\n'.toNat := by decide
  have ending : Text.IsScalar (skipped ++ ['\n'.toNat]) :=
    (Text.isScalar_append _ _).mpr
      ⟨skippedScalars, (Text.isScalar_cons _ _).mpr ⟨feed, Text.isScalar_nil⟩⟩
  have isPlain (source : Source) :
      ∀ line ∈ lines, line.IsPlain '\n'.toNat (ignores ⟨source, layers⟩) := by
    intro line member
    obtain ⟨noFeed, noneIgnored⟩ := plain line member
    exact ⟨noFeed, by simpa using noneIgnored⟩
  have areIgnored (source : Source) : ∀ unit ∈ skipped, ignores ⟨source, layers⟩ unit = true := by
    simpa using ignored
  constructor
  · intro nonempty
    obtain ⟨source, accepted, wellFormed, isText, units⟩ :=
      Source.exists_ofText (Text.isScalar_intercalate ending scalars)
    refine ⟨source, accepted, linePairs_eq onlyIgnores wellFormed isText ?_ ?_⟩
    · rw [units]
      exact Text.pieces_intercalate (by simpa using shown) (areIgnored source) nonempty
        (isPlain source)
    · exact fun line member => (plain line member).2
  · obtain ⟨source, accepted, wellFormed, isText, units⟩ :=
      Source.exists_ofText (Text.isScalar_terminated ending scalars)
    refine ⟨source, accepted, linePairs_eq onlyIgnores wellFormed isText ?_ ?_⟩
    · rw [units]
      exact Text.pieces_terminated (by simpa using shown) (areIgnored source) (isPlain source)
    · intro line member
      rcases List.mem_append.mp member with isLine | isEmpty
      · exact (plain line isLine).2
      · cases List.mem_singleton.mp isEmpty
        exact nofun

end View

namespace Text

/-- The keys and values of the lines of a text. -/
def linePairs (text : Text) : Except Fault (List (Text × Text)) := do
  let source ← Source.ofText text
  View.linePairs ⟨source, []⟩

/-- The keys and values of the lines of a text, of which one unit is ignored. -/
def linePairsIgnoring (ignored : Literal) (text : Text) : Except Fault (List (Text × Text)) := do
  let source ← Source.ofText text
  let view ← View.ignore ⟨source, []⟩ ignored
  view.linePairs

theorem linePairs_of_read {text : Text} {pairs : List (Text × Text)}
    (read : ∃ source, Source.ofText text = .ok source ∧
      View.linePairs ⟨source, []⟩ = .ok pairs) :
    linePairs text = .ok pairs := by
  obtain ⟨source, accepted, isRead⟩ := read
  rw [linePairs, accepted]
  exact isRead

theorem linePairsIgnoring_of_read {text : Text} {unit : Code} {pairs : List (Text × Text)}
    (read : ∃ source, Source.ofText text = .ok source ∧
      View.linePairs ⟨source, [.ignoring unit]⟩ = .ok pairs) :
    linePairsIgnoring (.text [unit]) text = .ok pairs := by
  obtain ⟨source, accepted, isRead⟩ := read
  have isText : source.mode = .text := @Source.mode_ofInput .text (.text text) source accepted
  have layered : View.ignore ⟨source, []⟩ (.text [unit]) = .ok ⟨source, [.ignoring unit]⟩ := by
    rw [View.ignore, View.mode, isText]
    rfl
  rw [linePairsIgnoring, accepted]
  show (View.ignore ⟨source, []⟩ (.text [unit]) >>= View.linePairs) = _
  rw [layered]
  exact isRead

/-- **Carriage returns that are ignored leave no trace in the lines they end.** Take any lines
without carriage returns, line feeds and lone surrogates. Joined by both characters and read with
carriage returns ignored, or joined by line feeds alone and read as they are, they have the same
keys and values, which are those of each line. So they do where the last line is terminated as
well, with an empty line behind it. -/
theorem crlf_lines_read_as_lf_lines (lines : List Text) (nonempty : lines ≠ [])
    (scalars : ∀ line ∈ lines, line.IsScalar)
    (unbroken : ∀ line ∈ lines, '\r'.toNat ∉ line ∧ '\n'.toNat ∉ line) :
    let crlf : Text := ['\r'.toNat, '\n'.toNat]
    let lf : Text := ['\n'.toNat]
    let ignored : Literal := .text ['\r'.toNat]
    (linePairsIgnoring ignored (crlf.intercalate lines) = linePairs (lf.intercalate lines) ∧
      linePairs (lf.intercalate lines) = .ok (lines.map keyAndValue)) ∧
    (linePairsIgnoring ignored (terminated crlf lines) = linePairs (terminated lf lines) ∧
      linePairs (terminated lf lines) = .ok ((lines ++ [[]]).map keyAndValue)) := by
  intro crlf lf ignored
  have returnScalar : Text.IsScalar ['\r'.toNat] :=
    (isScalar_cons _ _).mpr ⟨by decide, isScalar_nil⟩
  have noReturn : ∀ line ∈ lines, '\n'.toNat ∉ line ∧
      ∀ unit ∈ line, .ignoring unit ∉ [Layer.ignoring '\r'.toNat] := by
    intro line member
    refine ⟨(unbroken line member).2, fun unit inLine isIgnored => ?_⟩
    cases List.mem_singleton.mp isIgnored
    exact (unbroken line member).1 inLine
  obtain ⟨returned, returnedLast⟩ :=
    @View.linePairs_of_lines [.ignoring '\r'.toNat] (by simp) ['\r'.toNat] (by simp) (by decide)
      returnScalar lines scalars noReturn
  obtain ⟨fed, fedLast⟩ :=
    @View.linePairs_of_lines [] nofun [] nofun List.not_mem_nil isScalar_nil lines scalars
      fun line member => ⟨(unbroken line member).2, fun _ _ => List.not_mem_nil⟩
  have joined : linePairs (lf.intercalate lines) = .ok (lines.map keyAndValue) :=
    linePairs_of_read (fed nonempty)
  have ended : linePairs (terminated lf lines) = .ok ((lines ++ [[]]).map keyAndValue) :=
    linePairs_of_read fedLast
  exact ⟨⟨(linePairsIgnoring_of_read (returned nonempty)).trans joined.symm, joined⟩,
    (linePairsIgnoring_of_read returnedLast).trans ended.symm, ended⟩

/-- A line with a key, an empty one, and one that ends in a colon. -/
theorem crlf_lines_read_as_lf_lines_at_colon :
    let lines : List Text := [Text.ofString "a: b", [], Text.ofString "é:"]
    lines ≠ [] ∧ (∀ line ∈ lines, line.IsScalar) ∧
      (∀ line ∈ lines, '\r'.toNat ∉ line ∧ '\n'.toNat ∉ line) ∧
      linePairsIgnoring (.text ['\r'.toNat])
          (List.intercalate ['\r'.toNat, '\n'.toNat] lines) =
        linePairs (List.intercalate ['\n'.toNat] lines) ∧
      linePairs (List.intercalate ['\n'.toNat] lines) =
        .ok [(Text.ofString "a", Text.ofString "b"), ([], []), (Text.ofString "é", [])] := by
  intro lines
  have nonempty : lines ≠ [] := List.cons_ne_nil _ _
  have scalars : ∀ line ∈ lines, line.IsScalar := by
    simp [lines, Text.ofString, Code.isScalar_iff]
  have unbroken : ∀ line ∈ lines, '\r'.toNat ∉ line ∧ '\n'.toNat ∉ line := by
    decide
  obtain ⟨⟨same, read⟩, -⟩ := crlf_lines_read_as_lf_lines lines nonempty scalars unbroken
  exact ⟨nonempty, scalars, unbroken, same, read.trans (by decide)⟩

end Text

end RecordScan
