import RecordScan.Proofs.Scan.Reading

/-!
Contract: searching for the bytes of a unit finds the unit.

Owns: that bytes of a unit stand only at positions of a source
(`Source.Admits.admits_of_matchesAt`), and where a search for them ends
(`Source.Admits.seek_leaves`): before the first occurrence of the unit, or at the
end of the bounds.

A search looks at every offset, also inside the bytes of a scalar. That it stops
at none of those is self-synchronisation (`RecordScan.Proofs.Utf8.Boundary`).
-/

namespace RecordScan

namespace Source

/-! ## Needles -/

theorem matchesAt_iff_isPrefix {bytes : Array UInt8} {needle : List UInt8} {offset : Nat} :
    matchesAt bytes needle offset = true ↔ needle <+: bytes.toList.drop offset := by
  induction needle generalizing offset with
  | nil => simp [matchesAt]
  | cons byte needle inductionHypothesis =>
      simp only [matchesAt, Bool.and_eq_true, beq_iff_eq, inductionHypothesis]
      constructor
      · rintro ⟨byteAt, following⟩
        obtain ⟨inside, byteEq⟩ := Array.getElem?_eq_some_iff.mp byteAt
        rw [List.drop_eq_getElem_cons (by simpa using inside), Array.getElem_toList, byteEq]
        exact (List.prefix_cons_inj byte).mpr following
      · intro stands
        have byteAt : bytes[offset]? = some byte := by
          obtain ⟨rest, restEq⟩ := stands
          rw [← Array.getElem?_toList, ← Nat.add_zero offset, ← List.getElem?_drop, ← restEq]
          rfl
        obtain ⟨inside, byteEq⟩ := Array.getElem?_eq_some_iff.mp byteAt
        rw [List.drop_eq_getElem_cons (by simpa using inside), Array.getElem_toList, byteEq]
          at stands
        exact ⟨byteAt, (List.prefix_cons_inj byte).mp stands⟩

theorem findFrom_eq_some {bytes : Array UInt8} {needle : List UInt8} {stop rounds offset : Nat}
    {place : Nat} (found : findFrom bytes needle stop rounds offset = some place) :
    offset ≤ place ∧ place + needle.length ≤ stop ∧ matchesAt bytes needle place = true := by
  induction rounds generalizing offset with
  | zero => cases found
  | succ rounds inductionHypothesis =>
      rw [findFrom] at found
      by_cases tooLate : stop < offset + needle.length
      · rw [if_pos tooLate] at found
        cases found
      · rw [if_neg tooLate] at found
        by_cases here : matchesAt bytes needle offset = true
        · rw [if_pos here] at found
          cases found
          exact ⟨Nat.le_refl _, Nat.not_lt.mp tooLate, here⟩
        · rw [if_neg here] at found
          obtain ⟨later, fits, there⟩ := inductionHypothesis found
          exact ⟨Nat.le_of_succ_le later, fits, there⟩

/-- A search passes over offsets at which the needle does not stand before the bound. -/
private theorem findFrom_skip {bytes : Array UInt8} {needle : List UInt8} {stop rounds offset : Nat}
    (count : Nat)
    (absent : ∀ step < count, offset + step + needle.length ≤ stop →
      matchesAt bytes needle (offset + step) = false) :
    findFrom bytes needle stop (rounds + count) offset =
      findFrom bytes needle stop rounds (offset + count) := by
  induction count generalizing offset with
  | zero => rfl
  | succ count inductionHypothesis =>
      have later : findFrom bytes needle stop (rounds + count) (offset + 1) =
          findFrom bytes needle stop rounds (offset + 1 + count) := inductionHypothesis (by
        intro step below fits
        have := absent (step + 1) (by omega) (by omega)
        rwa [← Nat.add_assoc, Nat.add_right_comm] at this)
      rw [← Nat.add_assoc, findFrom]
      by_cases tooLate : stop < offset + needle.length
      · rw [if_pos tooLate]
        cases rounds with
        | zero => rfl
        | succ rounds => rw [findFrom, if_pos (by omega)]
      · have notHere := absent 0 (by omega) (by omega)
        rw [Nat.add_zero] at notHere
        rw [if_neg tooLate, notHere, if_neg (by simp), later]
        congr 1
        omega

variable {source : Source} {position : Nat}

/-- The bytes of a unit that are found in a source stand at a position of it. -/
theorem Admits.admits_of_matchesAt (admits : source.Admits position) {unit : Code}
    {offset : Nat} (ahead : position ≤ offset)
    (fits : offset + source.mode.unitWidth unit ≤ source.stop)
    (stands : matchesAt source.bytes (source.mode.unitBytes unit) offset = true) :
    source.Admits offset := by
  refine ⟨admits.toWellFormed, Nat.le_trans admits.start_le ahead, by omega, fun isText => ?_⟩
  obtain ⟨before, after, decoded, -⟩ := admits.boundary isText
  rw [isText] at stands
  exact Utf8.scalarBoundary_of_isPrefix decoded (matchesAt_iff_isPrefix.mp stands)

/-- No position lies between the bytes of one unit. -/
private theorem UnitAt.not_between {unit : Code} (found : source.UnitAt position unit)
    (admits : source.Admits position) {other : Nat} (otherAdmits : source.Admits other)
    (later : position < other) : position + source.mode.unitWidth unit ≤ other := by
  cases isMode : source.mode with
  | bytes => exact later
  | text =>
      obtain ⟨before, between, after, scalars, split, positionEq, otherEq⟩ :=
        Utf8.exists_split_of_boundaries (admits.boundary isMode) (otherAdmits.boundary isMode)
          (Nat.le_of_lt later)
      cases between with
      | nil =>
          simp only [Utf8.encodeAll_nil, List.length_nil] at otherEq
          omega
      | cons first between =>
          simp only [Text.isScalar_append, List.cons_append, Text.isScalar_cons] at scalars
          rw [Utf8.encodeAll_cons, List.length_append] at otherEq
          have stands := found.stands
          have holds := found.holds
          rw [isMode] at stands holds
          rw [split, positionEq, List.drop_left, Utf8.encodeAll_cons, List.append_assoc] at stands
          have same : unit = first :=
            @Mode.eq_of_unitBytes_isPrefix .text unit first holds scalars.2.1 _ stands
              (List.prefix_append _ _)
          rw [same, otherEq]
          show position + (Utf8.encodeCode first).length ≤ _
          omega

/-! ## Where a search ends -/

/-- A search for a unit passes over the other units, as a walk does. -/
private theorem Admits.findFrom_lands (admits : source.Admits position) {wanted : Code}
    (holds : source.mode.Holds wanted) {rounds : Nat}
    (enough : source.stop - position < rounds) :
    ∃ moved, (findFrom source.bytes (source.mode.unitBytes wanted) source.stop rounds
        position).getD source.stop = moved ∧ source.Admits moved ∧ position ≤ moved ∧
      source.unitsFrom moved = (source.unitsFrom position).dropWhile (· != wanted) := by
  induction left : source.stop - position using Nat.strongRecOn
    generalizing position rounds with
  | ind left inductionHypothesis =>
      have wantedPositive := source.mode.unitWidth_pos wanted
      rcases Nat.lt_or_eq_of_le admits.le_stop with before | atEnd
      · obtain ⟨unit, found⟩ := admits.exists_unitAt before
        have positive := source.mode.unitWidth_pos unit
        have fits := found.admits_next.le_stop
        rw [found.unitsFrom_eq]
        by_cases same : unit = wanted
        · -- The first unit is the wanted one, so the search ends where it began.
          subst same
          refine ⟨position, ?_, admits, Nat.le_refl _, by simp [found.unitsFrom_eq]⟩
          obtain ⟨rounds, rfl⟩ : ∃ less, rounds = less + 1 := ⟨rounds - 1, by omega⟩
          have inBounds : ¬ source.stop < position + (source.mode.unitBytes unit).length :=
            Nat.not_lt.mpr fits
          rw [findFrom, if_neg inBounds,
            if_pos (matchesAt_iff_isPrefix.mpr found.stands), Option.getD_some]
        · -- Nothing is found inside the first unit, and what follows is shorter.
          have absent : ∀ step < source.mode.unitWidth unit,
              position + step + (source.mode.unitBytes wanted).length ≤ source.stop →
              matchesAt source.bytes (source.mode.unitBytes wanted) (position + step) =
                false := by
            intro step below stepFits
            apply Bool.eq_false_iff.mpr
            intro stands
            have stepAdmits :=
              admits.admits_of_matchesAt (Nat.le_add_right position step) stepFits stands
            cases step with
            | zero =>
                exact same (Mode.eq_of_unitBytes_isPrefix found.holds holds found.stands
                  (matchesAt_iff_isPrefix.mp stands))
            | succ step =>
                have outside := found.not_between admits stepAdmits (by omega)
                omega
          obtain ⟨less, rfl⟩ : ∃ less, rounds = less + source.mode.unitWidth unit :=
            ⟨rounds - source.mode.unitWidth unit, by omega⟩
          have stillEnough : source.stop - (position + source.mode.unitWidth unit) < less := by
            omega
          obtain ⟨moved, landing, movedAdmits, forward, movedAhead⟩ :=
            inductionHypothesis _ (by omega) found.admits_next stillEnough rfl
          refine ⟨moved, ?_, movedAdmits, by omega, ?_⟩
          · rw [findFrom_skip _ absent, landing]
          · rw [movedAhead, List.dropWhile_cons, if_pos (by simpa using same)]
      · subst atEnd
        refine ⟨source.stop, ?_, admits, Nat.le_refl _, by simp [unitsFrom_stop]⟩
        obtain ⟨rounds, rfl⟩ : ∃ less, rounds = less + 1 := ⟨rounds - 1, by omega⟩
        have tooLate : source.stop < source.stop + (source.mode.unitBytes wanted).length :=
          Nat.lt_add_of_pos_right wantedPositive
        rw [findFrom, if_pos tooLate, Option.getD_none]

/-- A search ends before the first occurrence of the unit, or at the end of the bounds. -/
theorem Admits.seek_leaves (admits : source.Admits position) {wanted : Code}
    (holds : source.mode.Holds wanted) :
    Scan.Leaves source.Admits source.unitsFrom (source.seek (source.mode.unitBytes wanted))
      position () ((source.unitsFrom position).dropWhile (· != wanted)) := by
  obtain ⟨moved, landing, movedAdmits, forward, movedAhead⟩ :=
    admits.findFrom_lands holds (Nat.lt_succ_self (source.stop - position))
  refine ⟨moved, ?_, movedAdmits, forward, movedAhead⟩
  rw [← landing]
  rfl

/-- Whatever bytes of a unit are searched for, also of one that no buffer holds, the search ends
at a position, and no earlier. -/
theorem Admits.seek_admits (admits : source.Admits position) (unit : Code) :
    ∃ moved, source.seek (source.mode.unitBytes unit) position = (.ok (), moved) ∧
      source.Admits moved ∧ position ≤ moved := by
  refine ⟨_, rfl, ?_⟩
  cases found : findFrom source.bytes (source.mode.unitBytes unit) source.stop
      (source.stop - position + 1) position with
  | none => exact ⟨admits.admits_stop, admits.le_stop⟩
  | some place =>
      obtain ⟨later, fits, stands⟩ := findFrom_eq_some found
      exact ⟨admits.admits_of_matchesAt later fits stands, later⟩

end Source

end RecordScan
