import Criteria.Condition

/-!
# Criteria that fit a schema

A criterion may meet a schema that lacks its field.  If the schema has the field, two
things can be wrong with the criterion by itself: it searches for a part of a text in a
field of another kind, or its value does not convert.  This module names the fault of a
criterion and the constant that its value becomes where there is none.
-/

namespace Criteria

variable {R : RecordType}

/-- The value as the field would hold it, or as it is given if it does not convert. -/
def Field.held (f : Field R) (v : Value) : Value :=
  match f.convert v with
  | .ok constant => constant
  | .error _ => v

namespace Criterion

/-- Whether the schema has the field of a criterion. -/
def resolves (S : Schema R) (c : Criterion) : Bool :=
  (S.resolve c.field).isSome

/-- If the schema has the field, the comparison suits its kind and the value converts. -/
def Fits (S : Schema R) (c : Criterion) : Prop :=
  ∀ f, S.resolve c.field = some f →
    (c.comparison = .contains → f.kind = .text) ∧
      ∃ constant, f.convert c.value = .ok constant

/-- The fault of a criterion that does not fit.  An unsuitable comparison comes before a
value that does not convert. -/
def misfit? (S : Schema R) (c : Criterion) : Option FilterError :=
  match S.resolve c.field with
  | none => none
  | some f =>
    if c.comparison = .contains ∧ f.kind ≠ .text then
      some (.unsupportedComparison c.field c.comparison f.kind)
    else
      match f.convert c.value with
      | .ok _ => none
      | .error e => some (.conversion c.field e)

theorem misfit?_eq_none_iff {S : Schema R} {c : Criterion} :
    c.misfit? S = none ↔ c.Fits S := by
  rw [misfit?, Fits]
  cases hf : S.resolve c.field with
  | none => simp
  | some f =>
      by_cases hkind : c.comparison = .contains ∧ f.kind ≠ .text
      · simp [hkind]
      · have hsuits : c.comparison = .contains → f.kind = .text := by
          intro hcontains
          exact Decidable.not_not.mp fun hne => hkind ⟨hcontains, hne⟩
        cases hvalue : f.convert c.value with
        | ok constant => simpa [hkind, hvalue] using hsuits
        | error e => simp [hkind, hvalue]

theorem constant_eq
    {S : Schema R} {c : Criterion} {f : Field R} (hf : S.resolve c.field = some f) :
    c.constant f =
      match c.misfit? S with
      | none => .ok (f.held c.value)
      | some e => .error e := by
  rw [constant, misfit?, hf]
  by_cases hkind : c.comparison = .contains ∧ f.kind ≠ .text
  · simp [hkind]
  · simp only [if_neg hkind, Field.held]
    cases f.convert c.value <;> rfl

theorem misfit?_ne
    {S : Schema R} {c : Criterion} {e : FilterError} (h : c.misfit? S = some e) :
    (∀ field record, e ≠ .unresolvedField field record) ∧
      (∀ field, e ≠ .duplicatePlaceholder field) := by
  rw [misfit?] at h
  split at h
  next => cases h
  next f hf =>
    split at h
    next => simp [← Option.some.inj h]
    next =>
      split at h
      next => cases h
      next => simp [← Option.some.inj h]

end Criterion

/-- A record type to try statements on: parcels have a number that fits in a byte, and a
note. -/
def parcels : RecordType where
  name := "Parcel"
  slots := [.int .u8, .text]

/-- The fields of parcels. -/
def parcelSchema : Schema parcels :=
  .ofList [⟨"number", (0 : Fin 2)⟩, ⟨"note", (1 : Fin 2)⟩]

/-- The parcel of the given number, without a note. -/
def parcelNumbered (number : Integer .u8) : Record parcels :=
  (Record.initial parcels).set (0 : Fin 2) number

example :
    Criterion.misfit? parcelSchema ⟨.and, "number", .contains, .text "x", []⟩ =
      some (.unsupportedComparison "number" .contains .int) := rfl

namespace Schema

/-- The schema that gives the slots of a record type the listed names in order. -/
def ofNames (R : RecordType) (names : List String) : Schema R :=
  .ofList (names.zipWith Field.mk (List.finRange R.slots.length))

theorem name_of_resolve {S : Schema R} {name : String} {f : Field R}
    (h : S.resolve name = some f) : f.name = name := by
  simpa using List.find?_some h

theorem mem_of_resolve {S : Schema R} {name : String} {f : Field R}
    (h : S.resolve name = some f) : f ∈ S.fields :=
  List.mem_of_find?_eq_some h

end Schema

end Criteria
