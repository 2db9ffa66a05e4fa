import Criteria.Record

/-!
# What a conversion gives

A conversion that succeeds gives a value of the wanted kind, and one that fails holds the value
that was to be converted.  A storage type takes a value by converting it to its own kind; only
then does it check the range of a narrow type, or round to single precision.
-/

namespace Criteria

theorem mapError_eq_ok_iff {α ε ε' : Type} {x : Except ε α} {f : ε → ε'} {a : α} :
    x.mapError f = .ok a ↔ x = .ok a := by
  cases x with
  | ok b =>
      constructor
      · exact fun h => congrArg Except.ok (Except.ok.inj h)
      · exact fun h => congrArg Except.ok (Except.ok.inj h)
  | error fault => constructor <;> · intro h; cases h

theorem exists_of_mapError_eq_error
    {α ε ε' : Type} {x : Except ε α} {f : ε → ε'} {e : ε'} (h : x.mapError f = .error e) :
    ∃ fault, x = .error fault ∧ f fault = e := by
  cases x with
  | ok a => cases h
  | error fault => exact ⟨fault, rfl, Except.error.inj h⟩

theorem map_eq_ok_iff {α β ε : Type} {x : Except ε α} {f : α → β} {b : β} :
    x.map f = .ok b ↔ ∃ a, x = .ok a ∧ f a = b := by
  cases x <;> simp [Except.map]

namespace Value

variable {v w : Value} {target : Kind}

theorem convert_int_eq_ok_iff : v.convert .int = .ok w ↔ ∃ i, v.toInt = .ok i ∧ Value.int i = w :=
  mapError_eq_ok_iff.trans map_eq_ok_iff

theorem convert_float_eq_ok_iff :
    v.convert .float = .ok w ↔ ∃ x, v.toDouble = .ok x ∧ Value.float x = w :=
  mapError_eq_ok_iff.trans map_eq_ok_iff

theorem convert_bool_eq_ok_iff :
    v.convert .bool = .ok w ↔ ∃ b, v.toBool = .ok b ∧ Value.bool b = w :=
  mapError_eq_ok_iff.trans map_eq_ok_iff

theorem convert_text_eq_ok_iff : v.convert .text = .ok w ↔ Value.text v.toText = w :=
  ⟨Except.ok.inj, congrArg Except.ok⟩

/-- A value of the wanted kind is kept as it is. -/
theorem convert_kind (v : Value) : v.convert v.kind = .ok v := by
  cases v <;> rfl

theorem kind_of_convert (h : v.convert target = .ok w) : w.kind = target := by
  cases target with
  | int =>
      obtain ⟨i, -, rfl⟩ := convert_int_eq_ok_iff.mp h
      rfl
  | float =>
      obtain ⟨x, -, rfl⟩ := convert_float_eq_ok_iff.mp h
      rfl
  | bool =>
      obtain ⟨b, -, rfl⟩ := convert_bool_eq_ok_iff.mp h
      rfl
  | text =>
      obtain rfl := convert_text_eq_ok_iff.mp h
      rfl

/-- A failed conversion holds the value that was to be converted and the wanted kind. -/
theorem error_of_convert {e : ConversionError} (h : v.convert target = .error e) :
    e = ⟨v, target, e.fault⟩ := by
  obtain ⟨fault, -, rfl⟩ := exists_of_mapError_eq_error h
  rfl

end Value

namespace StorageType

variable {v : Value}

theorem ofValue_int_eq_ok_iff {t : IntType} {n : Integer t} :
    (StorageType.int t).ofValue v = .ok n ↔ ∃ i, v.toInt = .ok i ∧ n.val = i.val := by
  rw [ofValue]
  cases v.toInt with
  | error fault =>
      constructor
      · intro h
        cases h
      · rintro ⟨i, h, -⟩
        cases h
  | ok i =>
      simp only [Except.bind, Except.ok.injEq, exists_eq_left', ← Integer.ofInt?_eq_some_iff]
      cases Integer.ofInt? t i.val with
      | none => constructor <;> · intro h; cases h
      | some m =>
          rw [Option.some.injEq]
          exact ⟨Except.ok.inj, congrArg Except.ok⟩

theorem ofValue_single_eq_ok_iff {y : Single} :
    StorageType.single.ofValue v = .ok y ↔ ∃ x, v.toDouble = .ok x ∧ Binary.reformat x = y :=
  mapError_eq_ok_iff.trans map_eq_ok_iff

theorem ofValue_double_eq_ok_iff {x : Double} :
    StorageType.double.ofValue v = .ok x ↔ v.toDouble = .ok x :=
  mapError_eq_ok_iff

theorem ofValue_bool_eq_ok_iff {b : Bool} :
    StorageType.bool.ofValue v = .ok b ↔ v.toBool = .ok b :=
  mapError_eq_ok_iff

/-- A storage type takes a value by converting it to its own kind first. -/
theorem ofValue_eq_ok_iff_convert {s : StorageType} {x : s.Carrier} :
    s.ofValue v = .ok x ↔ ∃ u, v.convert s.kind = .ok u ∧ s.ofValue u = .ok x := by
  constructor
  · intro hx
    cases s with
    | int t =>
        obtain ⟨i, hi, hval⟩ := ofValue_int_eq_ok_iff.mp hx
        exact ⟨.int i, Value.convert_int_eq_ok_iff.mpr ⟨i, hi, rfl⟩,
          ofValue_int_eq_ok_iff.mpr ⟨i, rfl, hval⟩⟩
    | single =>
        obtain ⟨y, hy, hround⟩ := ofValue_single_eq_ok_iff.mp hx
        exact ⟨.float y, Value.convert_float_eq_ok_iff.mpr ⟨y, hy, rfl⟩,
          ofValue_single_eq_ok_iff.mpr ⟨y, rfl, hround⟩⟩
    | double =>
        exact ⟨.float x,
          Value.convert_float_eq_ok_iff.mpr ⟨x, ofValue_double_eq_ok_iff.mp hx, rfl⟩, rfl⟩
    | bool =>
        exact ⟨.bool x,
          Value.convert_bool_eq_ok_iff.mpr ⟨x, ofValue_bool_eq_ok_iff.mp hx, rfl⟩, rfl⟩
    | text => exact ⟨.text v.toText, rfl, hx⟩
  · rintro ⟨u, hu, hx⟩
    cases s with
    | int t =>
        obtain ⟨i, hi, rfl⟩ := Value.convert_int_eq_ok_iff.mp hu
        obtain ⟨j, hj, hval⟩ := ofValue_int_eq_ok_iff.mp hx
        obtain rfl := Except.ok.inj hj
        exact ofValue_int_eq_ok_iff.mpr ⟨i, hi, hval⟩
    | single =>
        obtain ⟨y, hy, rfl⟩ := Value.convert_float_eq_ok_iff.mp hu
        obtain ⟨z, hz, hround⟩ := ofValue_single_eq_ok_iff.mp hx
        obtain rfl := Except.ok.inj hz
        exact ofValue_single_eq_ok_iff.mpr ⟨y, hy, hround⟩
    | double =>
        obtain ⟨y, hy, rfl⟩ := Value.convert_float_eq_ok_iff.mp hu
        obtain rfl := Except.ok.inj hx
        exact ofValue_double_eq_ok_iff.mpr hy
    | bool =>
        obtain ⟨b, hb, rfl⟩ := Value.convert_bool_eq_ok_iff.mp hu
        obtain rfl := Except.ok.inj hx
        exact ofValue_bool_eq_ok_iff.mpr hb
    | text =>
        obtain rfl := Value.convert_text_eq_ok_iff.mp hu
        exact hx

end StorageType

end Criteria
