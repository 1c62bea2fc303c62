import Mathlib.Data.List.Forall2
import RecordStore.Model.Reading

/-!
# What is read of a payload

The fields of an instance are read one by one (`Model.readFields_eq_some`), and what is read of a
choice of types is read of one of them.
-/

namespace RecordStore.Model

/-- The fields of an object are read one by one. -/
theorem readFields_eq_some {members : List (String × Json)} {fields : List Field}
    {ds : List (String × Datum)} :
    readFields members fields = some ds ↔
      List.Forall₂ (fun field d => readField members field = some d) fields ds := by
  induction fields generalizing ds with
  | nil => rw [readFields, List.forall₂_nil_left_iff, Option.some.injEq, eq_comm]
  | cons field fields ih =>
    rw [readFields, List.forall₂_cons_left_iff]
    simp only [← ih, Option.bind_eq_bind, Option.bind_eq_some_iff, Option.pure_def,
      Option.some.injEq]
    constructor
    · rintro ⟨d, hd, rest, hrest, rfl⟩
      exact ⟨d, rest, hd, hrest, rfl⟩
    · rintro ⟨d, rest, hd, hrest, rfl⟩
      exact ⟨d, hd, rest, hrest, rfl⟩

/-- The field that is read has its own name. -/
theorem fst_of_readField {members : List (String × Json)} {field : Field} {d : String × Datum}
    (h : readField members field = some d) : d.1 = field.name := by
  obtain ⟨name, type, initial⟩ := field
  rw [readField] at h
  split at h
  all_goals
    obtain ⟨_, -, rfl⟩ := Option.map_eq_some_iff.mp h
    rfl

/-- A field is read from its member, or holds its default. -/
theorem snd_of_readField {members : List (String × Json)} {field : Field} {d : String × Datum}
    (h : readField members field = some d) :
    (∃ value, readType value field.type = some d.2) ∨ field.initial = some d.2 := by
  obtain ⟨name, type, initial⟩ := field
  rw [readField] at h
  split at h
  · next value _ =>
    obtain ⟨_, hread, rfl⟩ := Option.map_eq_some_iff.mp h
    exact .inl ⟨value, hread⟩
  · obtain ⟨_, hinitial, rfl⟩ := Option.map_eq_some_iff.mp h
    exact .inr hinitial

/-- What is read exactly is read as one of the types. -/
theorem exists_of_readExact {value : Json} {choices : List FieldType} {d : Datum}
    (h : readExact value choices = some d) : ∃ type ∈ choices, readType value type = some d := by
  induction choices with
  | nil => cases h
  | cons type types ih =>
    rw [readExact] at h
    split at h
    · exact ⟨type, List.mem_cons_self, h⟩
    · obtain ⟨other, hmem, hread⟩ := ih h
      exact ⟨other, List.mem_cons_of_mem _ hmem, hread⟩

/-- What is read as the first type that fits is read as one of the types. -/
theorem exists_of_readFirst {value : Json} {choices : List FieldType} {d : Datum}
    (h : readFirst value choices = some d) : ∃ type ∈ choices, readType value type = some d := by
  induction choices with
  | nil => cases h
  | cons type types ih =>
    rw [readFirst] at h
    split at h
    · next hread =>
      cases h
      exact ⟨type, List.mem_cons_self, hread⟩
    · obtain ⟨other, hmem, hread⟩ := ih h
      exact ⟨other, List.mem_cons_of_mem _ hmem, hread⟩

/-- What is read of a choice of types is read of one of them. -/
theorem exists_of_readType_union {value : Json} {choices : List FieldType} {d : Datum}
    (h : readType value (.union choices) = some d) : ∃ type ∈ choices, readType value type = some d := by
  rw [readType] at h
  split at h
  · next hexact =>
    cases h
    exact exists_of_readExact hexact
  · exact exists_of_readFirst h

end RecordStore.Model
