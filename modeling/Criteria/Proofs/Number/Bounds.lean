import Criteria.Proofs.Narrowing

/-!
# The range of the integers in doubles

A double can be rounded to a whole number before its range is checked, and the range can be
checked on doubles.  A double that is rounded to a whole number is still a double, since it
either was a whole number before or has few bits.  The least integer of the widest type is a
double, and the greatest one becomes the power of two above it; so the doubles between them are
those whose nearest integer is in the range, and the check and the conversion come to the same.
-/

namespace Criteria

namespace Format

variable (F : Format)

/-- What a magnitude of the format is rounded to as a whole number is one of the format. -/
theorem represents_nearest
    (hrange : F.precision + F.scale < F.range) {units : Nat} (hunits : F.Represents units) :
    F.Represents (nearest units (2 ^ F.scale) * 2 ^ F.scale) := by
  have hscale := Nat.two_pow_pos F.scale
  by_cases hwhole : F.scale ≤ units.log2 + 1 - F.precision
  · -- Numbers this large are whole.
    obtain ⟨k, rfl⟩ := (Nat.pow_dvd_pow 2 hwhole).trans hunits.1
    rw [Nat.mul_comm _ k] at hunits ⊢
    rwa [nearest_mul_self k _ hscale]
  · have hsmall : units ≤ 2 ^ F.precision * 2 ^ F.scale := by
      rw [← Nat.pow_add]
      exact Nat.lt_log2_self.le.trans (Nat.pow_le_pow_right (by decide) (by omega))
    have hfew : nearest units (2 ^ F.scale) ≤ 2 ^ F.precision :=
      nearest_le_of_le_mul hscale hsmall
    exact ⟨F.spacing_dvd_mul_two_pow F.scale hfew, F.mul_two_pow_scale_lt hrange hfew⟩

end Format

namespace Binary

variable {F : Format}

theorem toWhole_finite
    (hrange : F.precision + F.scale < F.range) (negative : Bool) {units : Nat}
    (hunits : F.Represents units) :
    (finite negative units hunits).toWhole =
      .finite negative _ (F.represents_nearest hrange hunits) :=
  ofRatio_eq_finite Nat.one_pos (Nat.mul_one _).symm _

/-- Whole numbers are in the order of the integers that they are. -/
theorem compare?_whole
    {negative negative' : Bool} {m n : Nat} (hm : F.Represents (m * 2 ^ F.scale))
    (hn : F.Represents (n * 2 ^ F.scale)) :
    (finite negative _ hm).compare? (.finite negative' _ hn) =
      some (compare (signed negative m) (signed negative' n)) := by
  have hscale : (0 : Int) < (2 ^ F.scale : Nat) := by exact_mod_cast Nat.two_pow_pos F.scale
  rw [compare?, signed_mul, signed_mul, ← cmp_eq_compare, ← cmp_eq_compare,
    cmp_mul_pos_right hscale]

end Binary

namespace Integer

/-- The least integer is a double. -/
theorem represents_bound : Format.double.Represents (2 ^ 63 * 2 ^ Format.double.scale) := by
  refine ⟨?_, Format.double.mul_two_pow_scale_lt (by decide) le_rfl⟩
  rw [← Nat.pow_add, ← Nat.one_mul (2 ^ _)]
  exact Format.double.spacing_dvd_mul_two_pow _ (Nat.two_pow_pos _)

theorem ofInt_least :
    (Binary.ofInt IntType.i64.least : Double) = .finite true _ represents_bound := by
  apply Binary.ofInt_eq_finite
  exact (Format.double_roundUnits_eq_two_pow_iff (by decide)).mpr (by decide)

/-- The greatest integer is rounded up. -/
theorem ofInt_greatest :
    (Binary.ofInt IntType.i64.greatest : Double) = .finite false _ represents_bound := by
  apply Binary.ofInt_eq_finite
  exact (Format.double_roundUnits_eq_two_pow_iff (by decide)).mpr (by decide)

section Whole

variable (negative : Bool) {n : Nat} (hn : Format.double.Represents (n * 2 ^ Format.double.scale))

/-- The comparison with the two ends excludes the whole doubles that are out of the range. -/
theorem beyondRange_whole_iff :
    beyondRange (.finite negative _ hn) = true ↔
      ¬ (IntType.i64.least ≤ Binary.signed negative n ∧
        Binary.signed negative n ≤ IntType.i64.greatest) := by
  have hleast : Binary.signed true (2 ^ 63) = IntType.i64.least := rfl
  have hgreatest : Binary.signed false (2 ^ 63) = IntType.i64.greatest + 1 := rfl
  simp only [beyondRange, ofInt_least, ofInt_greatest, Binary.compare?_whole, hleast, hgreatest,
    Bool.or_eq_true, beq_iff_eq, Option.some.injEq, compare_lt_iff_lt, compare_gt_iff_gt,
    compare_eq_iff_eq]
  omega

/-- A whole double within the range is converted as it is. -/
theorem val_ofDoubleClamped_whole
    (hwithin : IntType.i64.least ≤ Binary.signed negative n ∧
      Binary.signed negative n ≤ IntType.i64.greatest) :
    (ofDoubleClamped (.finite negative _ hn)).val = Binary.signed negative n := by
  rw [ofDoubleClamped, Nat.mul_div_cancel _ (Nat.two_pow_pos _)]
  exact clamp_val_of_within hwithin.1 hwithin.2

end Whole

/-- A double is converted to the integer nearest to it if that is in the range, whether the
range is checked on the integer or on the rounded double. -/
theorem ofDouble?_eq (x : Double) : ofDouble? x = x.toInt?.bind (ofInt? .i64) := by
  cases x with
  | nan => rfl
  | infinity negative => rfl
  | finite negative units hunits =>
      have hrange : Format.double.precision + Format.double.scale < Format.double.range := by
        decide
      have hrounded := Format.double.represents_nearest hrange hunits
      have hbeyond := beyondRange_whole_iff negative hrounded
      rw [ofDouble?, Binary.isFinite, Bool.not_true, if_neg Bool.false_ne_true,
        Binary.toWhole_finite hrange, Binary.toInt?, Option.bind_some]
      by_cases hwithin : IntType.i64.least ≤
            Binary.signed negative (nearest units (2 ^ Format.double.scale)) ∧
          Binary.signed negative (nearest units (2 ^ Format.double.scale)) ≤
            IntType.i64.greatest
      · rw [if_neg (hbeyond.not.mpr (not_not_intro hwithin))]
        exact (ofInt?_eq_some_iff.mpr (val_ofDoubleClamped_whole negative hrounded hwithin)).symm
      · rw [if_pos (hbeyond.mpr hwithin), ofInt?, dif_neg hwithin]

end Integer

/-- A value that is a double becomes the integer that the check of the doubles lets through. -/
theorem Value.toInt_float_eq (x : Double) :
    (Value.float x).toInt = (Integer.ofDouble? x).elim (.error .outOfRange) .ok := by
  rw [toInt, Integer.ofDouble?_eq]
  cases x.toInt?.bind (Integer.ofInt? .i64) <;> rfl

end Criteria
