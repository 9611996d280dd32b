import RecordScan.Command.Run
import RecordScan.Proofs.Command.Delimiter

/-!
Contract: what loading the settings answers.

Owns: that settings which are loaded keep the constraints of their fields
(`Settings.valid_of_loadFrom`), as those without any variable do, and that each complaint
names the field it is about, or a variable of the file that sets nothing
(`Settings.places_of_load`).
Does not own: what runs do with the settings. They take any, valid or not.
-/

namespace RecordScan

theorem Field.integerFrom_le {least value : Int} {given : Literal}
    (isRead : Field.integerFrom least given = .ok value) : least ≤ value := by
  obtain ⟨found, -, checked⟩ := exists_of_bind_eq_ok isRead
  split at checked
  · cases checked
  · next notLess =>
      cases checked
      exact Int.not_lt.mp notLess

namespace Settings

/-- Settings that keep the constraints of their fields. -/
structure Valid (settings : Settings) : Prop where
  delimiter_ne_empty : settings.delimiter ≠ ""
  one_le_limit : ∀ limit, settings.maxSegments = some limit → 1 ≤ limit

theorem valid_default : default.Valid :=
  ⟨by decide, nofun⟩

/-! ## Fields -/

section Fields

variable {α : Type} {environment file : Variables} {name : String} {unset value : α}
  {read : String → Except Complaint α}

/-- A field keeps its default, or its value was read from a text. -/
theorem field_eq_ok (answered : field environment file name unset read = .ok value) :
    value = unset ∨ ∃ text, read text = .ok value := by
  unfold field at answered
  split at answered
  · exact .inl (Except.ok.inj answered).symm
  · next text _ =>
      split at answered
      · next isRead =>
          cases answered
          exact .inr ⟨text, isRead⟩
      · cases answered

/-- A field that was refused is named. -/
theorem place_of_field {complaint : FieldComplaint}
    (isComplaint : complaint ∈ complaintOf (field environment file name unset read)) :
    complaint.place = [name] := by
  unfold field at isComplaint
  split at isComplaint
  · cases isComplaint
  · split at isComplaint
    · cases isComplaint
    · obtain rfl := List.mem_singleton.mp isComplaint
      rfl

end Fields

theorem delimiterText_ne_empty {text value : String} (isRead : delimiterText text = .ok value) :
    value ≠ "" := by
  unfold delimiterText at isRead
  split at isRead
  · cases isRead
  · next notEmpty =>
      cases isRead
      exact fun isEmpty => notEmpty (String.isEmpty_iff.mpr isEmpty)

theorem one_le_segmentLimit {text : String} {value : Option Nat}
    (isRead : segmentLimit text = .ok value) : ∀ limit, value = some limit → 1 ≤ limit := by
  obtain ⟨found, isLimit, rfl⟩ := exists_of_map_eq_ok isRead
  have atLeast := Field.integerFrom_le isLimit
  rintro _ ⟨rfl⟩
  omega

/-! ## Loading -/

/-- Settings that are loaded keep the constraints of their fields. -/
theorem valid_of_load {environment : List (String × String)} {file : Option String}
    {settings : Settings} (loaded : load environment file = .ok settings) : settings.Valid := by
  unfold load at loaded
  dsimp only at loaded
  split at loaded
  · next isDelimiter _ isLimit _ =>
      cases loaded
      constructor
      · rcases field_eq_ok isDelimiter with rfl | ⟨text, isRead⟩
        · exact valid_default.delimiter_ne_empty
        · exact delimiterText_ne_empty isRead
      · rcases field_eq_ok isLimit with rfl | ⟨text, isRead⟩
        · exact valid_default.one_le_limit
        · exact one_le_segmentLimit isRead
  · cases loaded

/-- Settings of a run are valid, whatever stands in the environment and in the file. -/
theorem valid_of_loadFrom {environment : List (String × String)} {content : FileContent}
    {settings : Settings} (loaded : loadFrom environment content = .ok settings) :
    settings.Valid := by
  unfold loadFrom at loaded
  split at loaded
  · split at loaded
    · exact valid_of_load loaded
    · cases loaded
  · exact valid_of_load loaded

/-- A variable of the file that sets nothing is named, and it is no field. -/
theorem place_of_extras {file : Variables} {complaint : FieldComplaint}
    (isComplaint : complaint ∈ extras file) :
    complaint.complaint = .extra ∧ ∃ name ∉ fieldNames, complaint.place = [name] := by
  obtain ⟨entry, isExtra, rfl⟩ := List.mem_map.mp isComplaint
  have settlesNothing := (List.mem_filter.mp isExtra).2
  refine ⟨rfl, entry.1, fun isField => ?_, rfl⟩
  simp [isField] at settlesNothing

/-- **Complaints name what they are about.** Settings are refused with complaints only, each of
which is about a field, or about a variable of the file that is none. -/
theorem places_of_load {environment : List (String × String)} {file : Option String}
    {fault : Fault} (refused : load environment file = .error fault) :
    ∃ complaints, fault = .invalid complaints ∧ ∀ complaint ∈ complaints,
      (∃ name ∈ fieldNames, complaint.place = [name]) ∨
      complaint.complaint = .extra ∧ ∃ name ∉ fieldNames, complaint.place = [name] := by
  unfold load at refused
  dsimp only at refused
  split at refused
  · cases refused
  · cases refused
    refine ⟨_, rfl, fun complaint isComplaint => ?_⟩
    simp only [List.mem_append, or_assoc] at isComplaint
    rcases isComplaint with inLevel | inDelimiter | inMode | inLimit | inExtra
    · exact .inl ⟨_, by decide, place_of_field inLevel⟩
    · exact .inl ⟨_, by decide, place_of_field inDelimiter⟩
    · exact .inl ⟨_, by decide, place_of_field inMode⟩
    · exact .inl ⟨_, by decide, place_of_field inLimit⟩
    · exact .inr (place_of_extras inExtra)

end Settings

end RecordScan
