import Criteria.Number.Decimal
import Criteria.Proofs.Number.Widening

/-!
# The number nearest to a ratio

The number nearest to a ratio depends on the ratio alone, not on how it is written as a
quotient.  A decimal stands for a ratio, so the number nearest to a decimal stays the same
when zeros are added to its coefficient and taken off its exponent, and the cases in which
no power of ten is computed agree with those in which one is.
-/

namespace Criteria

theorem nearest_mul_mul_right (num den : Nat) {k : Nat} (hk : 0 < k) :
    nearest (num * k) (den * k) = nearest num den := by
  have hquotient : num * k / (den * k) = num / den := Nat.mul_div_mul_right num den hk
  have hremainder : num * k % (den * k) = num % den * k := Nat.mul_mod_mul_right k num den
  have hscale : 2 * (num % den * k) = 2 * (num % den) * k := (Nat.mul_assoc 2 _ k).symm
  have hbelow : 2 * (num % den) * k < den * k ↔ 2 * (num % den) < den :=
    Nat.mul_lt_mul_right hk
  have habove : den * k < 2 * (num % den) * k ↔ den < 2 * (num % den) :=
    Nat.mul_lt_mul_right hk
  simp only [nearest, hquotient, hremainder, hscale, hbelow, habove]

theorem div_le_nearest (num den : Nat) : num / den ≤ nearest num den := by
  simp only [nearest]
  split
  · exact Nat.le_refl _
  · split
    · exact Nat.le_succ _
    · exact Nat.le_add_right _ _

namespace Format

variable (F : Format)

theorem roundUnits_mul_mul_right (num den : Nat) {k : Nat} (hk : 0 < k) :
    F.roundUnits (num * k) (den * k) = F.roundUnits num den := by
  have hquotient : num * k / (den * k) = num / den := Nat.mul_div_mul_right num den hk
  simp only [roundUnits, hquotient]
  rw [Nat.mul_right_comm den k, nearest_mul_mul_right num _ hk]

theorem roundUnits_congr
    {num den num' den' : Nat} (hden : 0 < den) (hden' : 0 < den')
    (h : num * den' = num' * den) :
    F.roundUnits num den = F.roundUnits num' den' := by
  calc
    F.roundUnits num den = F.roundUnits (num * den') (den * den') :=
      (F.roundUnits_mul_mul_right num den hden').symm
    _ = F.roundUnits (num' * den) (den' * den) := by rw [h, Nat.mul_comm den den']
    _ = F.roundUnits num' den' := F.roundUnits_mul_mul_right num' den' hden

theorem spacing_pos (units : Nat) : 0 < F.spacing units :=
  Nat.two_pow_pos _

theorem spacing_dvd_two_pow_log2 (units : Nat) : F.spacing units ∣ 2 ^ units.log2 := by
  have hprecision := F.precision_pos
  exact Nat.pow_dvd_pow 2 (by omega)

/-- Rounding does not go below a power of two. -/
theorem two_pow_le_roundUnits {num den k : Nat} (h : 2 ^ k ≤ num / den) :
    2 ^ k ≤ F.roundUnits num den := by
  have hpositive : num / den ≠ 0 := by
    have hpow := Nat.two_pow_pos k
    omega
  have hlog : k ≤ (num / den).log2 := (Nat.le_log2 hpositive).mpr h
  -- The leading power of two is a multiple of the spacing, so rounding keeps it.
  obtain ⟨j, hleading⟩ := F.spacing_dvd_two_pow_log2 (num / den)
  have hcount : j ≤ num / (den * F.spacing (num / den)) := by
    rw [← Nat.div_div_eq_div_mul, Nat.le_div_iff_mul_le (F.spacing_pos _), Nat.mul_comm,
      ← hleading]
    exact Nat.log2_self_le hpositive
  calc
    2 ^ k ≤ 2 ^ (num / den).log2 := Nat.pow_le_pow_right (by decide) hlog
    _ = j * F.spacing (num / den) := by rw [hleading, Nat.mul_comm]
    _ ≤ F.roundUnits num den :=
      Nat.mul_le_mul_right _ (Nat.le_trans hcount (div_le_nearest _ _))

/-- What is below half a unit is rounded to zero. -/
theorem roundUnits_eq_zero {num den : Nat} (h : 2 * num < den) : F.roundUnits num den = 0 := by
  have hquotient : num / den = 0 := Nat.div_eq_of_lt (by omega)
  have hspacing : F.spacing 0 = 1 := by
    have hprecision := F.precision_pos
    rw [spacing, Nat.log2_zero, Nat.zero_add, Nat.sub_eq_zero_of_le hprecision, Nat.pow_zero]
  simp only [roundUnits, hquotient, hspacing, Nat.mul_one, nearest,
    Nat.mod_eq_of_lt (show num < den by omega), if_pos h]

end Format

namespace Binary

variable {F : Format}

theorem ofRatio_eq_of_roundUnits_eq
    {negative : Bool} {num den num' den' : Nat}
    (h : F.roundUnits (num * 2 ^ F.scale) den = F.roundUnits (num' * 2 ^ F.scale) den') :
    (ofRatio negative num den : Binary F) = ofRatio negative num' den' := by
  simp only [ofRatio, h]

theorem ofRatio_congr
    {negative : Bool} {num den num' den' : Nat} (hden : 0 < den) (hden' : 0 < den')
    (h : num * den' = num' * den) :
    (ofRatio negative num den : Binary F) = ofRatio negative num' den' := by
  refine ofRatio_eq_of_roundUnits_eq (F.roundUnits_congr hden hden' ?_)
  rw [Nat.mul_right_comm, h, Nat.mul_right_comm]

/-- Whether a ratio is rounded to a finite number does not depend on the sign. -/
theorem ofRatio_eq_finite_iff
    {negative : Bool} {num den units : Nat} (hunits : F.Represents units) :
    (ofRatio negative num den : Binary F) = .finite negative units hunits ↔
      F.roundUnits (num * 2 ^ F.scale) den = units := by
  constructor
  · intro h
    simp only [ofRatio] at h
    split at h
    · exact (Binary.finite.inj h).2
    · cases h
  · intro h
    simp only [ofRatio, h, hunits.2, dite_true]

theorem ofRatio_eq_infinity
    {negative : Bool} {num den : Nat} (h : 2 ^ F.range ≤ num * 2 ^ F.scale / den) :
    (ofRatio negative num den : Binary F) = .infinity negative := by
  have hlarge : ¬ F.roundUnits (num * 2 ^ F.scale) den < 2 ^ F.range :=
    Nat.not_lt.mpr (F.two_pow_le_roundUnits h)
  simp only [ofRatio, dif_neg hlarge]

end Binary

namespace Decimal

/-- The numerator of a decimal as a quotient. -/
def numerator (d : Decimal) : Nat :=
  d.coefficient * 10 ^ d.exponent.toNat

/-- The denominator of a decimal as a quotient. -/
def denominator (d : Decimal) : Nat :=
  10 ^ (-d.exponent).toNat

theorem denominator_pos (d : Decimal) : 0 < d.denominator :=
  Nat.pow_pos (by decide)

/-- The decimal with zeros added to its coefficient and taken off its exponent. -/
def shift (d : Decimal) (k : Nat) : Decimal :=
  ⟨d.coefficient * 10 ^ k, d.exponent - k⟩

theorem numerator_shift_mul (d : Decimal) (k : Nat) :
    (d.shift k).numerator * d.denominator = d.numerator * (d.shift k).denominator := by
  have hpower : k + (d.exponent - k).toNat + (-d.exponent).toNat =
      d.exponent.toNat + (-(d.exponent - k)).toNat := by
    omega
  simp only [numerator, denominator, shift, Nat.mul_assoc, ← Nat.pow_add]
  rw [hpower]

end Decimal

namespace Binary

variable {F : Format}

/-- The number nearest to a decimal is the one nearest to its ratio. -/
theorem ofDecimal_eq_ofRatio (negative : Bool) (d : Decimal) :
    (ofDecimal negative d : Binary F) = ofRatio negative d.numerator d.denominator := by
  obtain ⟨coefficient, exponent⟩ := d
  by_cases hzero : coefficient = 0
  · subst hzero
    have hround : F.roundUnits (0 * 10 ^ exponent.toNat * 2 ^ F.scale)
        (10 ^ (-exponent).toNat) = 0 := by
      refine F.roundUnits_eq_zero ?_
      rw [Nat.zero_mul, Nat.zero_mul, Nat.mul_zero]
      exact Nat.pow_pos (by decide)
    rw [ofDecimal, if_pos rfl]
    exact ((ofRatio_eq_finite_iff F.represents_zero).mpr hround).symm
  · have hpositive : 0 < coefficient := Nat.pos_of_ne_zero hzero
    rw [ofDecimal, if_neg hzero]
    cases exponent with
    | ofNat e =>
        have hratio : (⟨coefficient, .ofNat e⟩ : Decimal).numerator = coefficient * 10 ^ e := rfl
        have hone : (⟨coefficient, .ofNat e⟩ : Decimal).denominator = 1 := by
          simp [Decimal.denominator]
        rw [hratio, hone]
        by_cases hrange : F.range ≤ F.scale + e
        · simp only [if_pos hrange]
          refine (ofRatio_eq_infinity ?_).symm
          rw [Nat.div_one]
          calc
            2 ^ F.range ≤ 2 ^ (F.scale + e) := Nat.pow_le_pow_right (by decide) hrange
            _ = 2 ^ e * 2 ^ F.scale := by rw [Nat.add_comm, Nat.pow_add]
            _ ≤ coefficient * 10 ^ e * 2 ^ F.scale := by
              refine Nat.mul_le_mul_right _ ?_
              calc
                2 ^ e ≤ 10 ^ e := Nat.pow_le_pow_left (by decide) e
                _ ≤ coefficient * 10 ^ e := Nat.le_mul_of_pos_left _ hpositive
        · simp only [if_neg hrange]
    | negSucc e =>
        have hratio : (⟨coefficient, .negSucc e⟩ : Decimal).numerator = coefficient := by
          rw [Decimal.numerator, show (Int.negSucc e).toNat = 0 from rfl]
          exact Nat.mul_one coefficient
        have hpower : (⟨coefficient, .negSucc e⟩ : Decimal).denominator = 10 ^ (e + 1) := rfl
        rw [hratio, hpower]
        by_cases hsmall : coefficient.log2 + F.scale + 2 ≤ 3 * (e + 1)
        · simp only [if_pos hsmall]
          refine ((ofRatio_eq_finite_iff F.represents_zero).mpr ?_).symm
          refine F.roundUnits_eq_zero ?_
          calc
            2 * (coefficient * 2 ^ F.scale) < 2 * (2 ^ (coefficient.log2 + 1) * 2 ^ F.scale) := by
              refine Nat.mul_lt_mul_of_pos_left ?_ (by decide)
              exact Nat.mul_lt_mul_of_pos_right Nat.lt_log2_self (Nat.two_pow_pos _)
            _ = 2 ^ (coefficient.log2 + F.scale + 2) := by
              rw [← Nat.pow_add, Nat.mul_comm 2, ← Nat.pow_succ]
              congr 1
              omega
            _ ≤ 2 ^ (3 * (e + 1)) := Nat.pow_le_pow_right (by decide) hsmall
            _ = 8 ^ (e + 1) := Nat.pow_mul 2 3 (e + 1)
            _ ≤ 10 ^ (e + 1) := Nat.pow_le_pow_left (by decide) _
        · simp only [if_neg hsmall]

theorem ofDecimal_shift (negative : Bool) (d : Decimal) (k : Nat) :
    (ofDecimal negative (d.shift k) : Binary F) = ofDecimal negative d := by
  rw [ofDecimal_eq_ofRatio, ofDecimal_eq_ofRatio]
  exact ofRatio_congr (d.shift k).denominator_pos d.denominator_pos (d.numerator_shift_mul k)

end Binary

end Criteria
