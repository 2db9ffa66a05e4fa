import Criteria.Condition

/-!
# Comparing a value with itself and with equal values

A value that is no NaN equals itself and is ordered with itself, so it stands in every
comparison to itself that allows equality.  Equality of values is coarser than identity,
because the two zeros are equal, and a NaN is not even equal to itself.  No comparison
tells equal values apart, though, nor one NaN from another.
-/

namespace Criteria

namespace Binary

variable {F : Format} {x y : Binary F}

theorem equals_self (h : x ≠ .nan) : x.equals x = true := by
  cases x with
  | nan => exact absurd rfl h
  | infinity negative => exact beq_self_eq_true negative
  | finite negative units hunits => exact beq_self_eq_true (signed negative units)

theorem compare?_self (h : x ≠ .nan) : x.compare? x = some .eq := by
  cases x with
  | nan => exact absurd rfl h
  | infinity negative => exact congrArg some Std.ReflCmp.compare_self
  | finite negative units hunits => exact congrArg some Std.ReflCmp.compare_self

/-- Equal numbers are the same infinity, or finite with the same signed count of units. -/
theorem equals_cases (h : x.equals y = true) :
    x = y ∨ ∃ m a ha n b hb, x = .finite m a ha ∧ y = .finite n b hb ∧ signed m a = signed n b := by
  cases x with
  | nan => cases h
  | infinity m =>
      cases y with
      | infinity n => exact .inl (congrArg infinity (eq_of_beq h))
      | nan => cases h
      | finite n b hb => cases h
  | finite m a ha =>
      cases y with
      | finite n b hb => exact .inr ⟨m, a, ha, n, b, hb, rfl, rfl, eq_of_beq h⟩
      | nan => cases h
      | infinity n => cases h

theorem equals_congr (h : x.equals y = true) (z : Binary F) : x.equals z = y.equals z := by
  rcases equals_cases h with rfl | ⟨m, a, ha, n, b, hb, rfl, rfl, hsigned⟩
  · rfl
  · cases z <;> simp only [equals, hsigned]

theorem compare?_congr (h : x.equals y = true) (z : Binary F) :
    x.compare? z = y.compare? z := by
  rcases equals_cases h with rfl | ⟨m, a, ha, n, b, hb, rfl, rfl, hsigned⟩
  · rfl
  · cases z <;> simp only [compare?, hsigned]

end Binary

namespace Value

variable {v w : Value}

theorem equals_self (h : v ≠ .float .nan) : v.equals v = true := by
  cases v with
  | bool b => exact beq_self_eq_true b
  | int i => exact beq_self_eq_true i
  | float x => exact Binary.equals_self fun hnan => h (by rw [hnan])
  | text s => exact beq_self_eq_true s

theorem compare?_self (h : v ≠ .float .nan) : v.compare? v = some .eq := by
  cases v with
  | bool b => exact congrArg some Std.ReflCmp.compare_self
  | int i => exact congrArg some Std.ReflCmp.compare_self
  | float x => exact Binary.compare?_self fun hnan => h (by rw [hnan])
  | text s => exact congrArg some Std.ReflCmp.compare_self

/-- The values are equal, or both are NaN. -/
def Agrees (v w : Value) : Prop :=
  v.equals w = true ∨ v = .float .nan ∧ w = .float .nan

theorem Agrees.refl (v : Value) : v.Agrees v := by
  by_cases h : v = .float .nan
  · exact .inr ⟨h, h⟩
  · exact .inl (equals_self h)

/-- Equal values are identical, or floats that are equal as numbers. -/
theorem equals_cases (h : v.equals w = true) :
    v = w ∨ ∃ x y, v = .float x ∧ w = .float y ∧ x.equals y = true := by
  cases v with
  | bool a =>
      cases w with
      | bool b => exact .inl (congrArg bool (eq_of_beq h))
      | _ => cases h
  | int a =>
      cases w with
      | int b => exact .inl (congrArg int (eq_of_beq h))
      | _ => cases h
  | float x =>
      cases w with
      | float y => exact .inr ⟨x, y, rfl, rfl, h⟩
      | _ => cases h
  | text s =>
      cases w with
      | text t => exact .inl (congrArg text (eq_of_beq h))
      | _ => cases h

end Value

namespace Comparison

/-- The comparisons that allow equality. -/
def allowsEqual : Comparison → Bool
  | .equal | .lessThanOrEqual | .greaterThanOrEqual | .contains => true
  | .notEqual | .lessThan | .greaterThan => false

/-- A value that is no NaN stands in every comparison to itself that allows equality, as
long as only a text is searched for a text. -/
theorem holds_self
    {comparison : Comparison} {v : Value} (hequal : comparison.allowsEqual = true)
    (hnan : v ≠ .float .nan) (htext : comparison = .contains → v.kind = .text) :
    comparison.holds v v = true := by
  have hself := Value.compare?_self hnan
  cases comparison with
  | equal => exact Value.equals_self hnan
  | lessThanOrEqual => simp [holds, hself]
  | greaterThanOrEqual => simp [holds, hself]
  | contains =>
      cases v with
      | text s => exact String.contains_string_iff.mpr (List.infix_refl s.toList)
      | _ => cases htext rfl
  | notEqual => cases hequal
  | lessThan => cases hequal
  | greaterThan => cases hequal

/-- No comparison tells values apart that are equal or both NaN. -/
theorem holds_congr
    (comparison : Comparison) {v w : Value} (h : v.Agrees w) (constant : Value) :
    comparison.holds v constant = comparison.holds w constant := by
  rcases h with hequals | ⟨rfl, rfl⟩
  · rcases Value.equals_cases hequals with rfl | ⟨x, y, rfl, rfl, hxy⟩
    · rfl
    · have hequal : (Value.float x).equals constant = (Value.float y).equals constant := by
        cases constant with
        | float z => exact Binary.equals_congr hxy z
        | _ => rfl
      have horder : (Value.float x).compare? constant = (Value.float y).compare? constant := by
        cases constant with
        | float z => exact Binary.compare?_congr hxy z
        | _ => rfl
      cases comparison <;> simp only [holds, hequal, horder, Value.text?]
  · rfl

end Comparison

end Criteria
