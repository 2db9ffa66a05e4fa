import Criteria.Number.Rounding

/-!
# Widening a number loses nothing

A format lies within another one that has at least its precision, at least its fineness
and at least its range.  A number of the narrower format is then also a number of the wider
one, so rounding it there changes nothing, and rounding back gives the number itself.
-/

namespace Criteria

theorem nearest_mul_self (k den : Nat) (hden : 0 < den) : nearest (k * den) den = k := by
  have hquotient : k * den / den = k := Nat.mul_div_cancel k hden
  have hremainder : k * den % den = 0 := Nat.mul_mod_left k den
  simp [nearest, hquotient, hremainder, hden]

theorem log2_mul_two_pow {n : Nat} (hn : n ≠ 0) (k : Nat) : (n * 2 ^ k).log2 = n.log2 + k := by
  rw [Nat.log2_eq_iff (Nat.mul_ne_zero hn (Nat.ne_of_gt (Nat.two_pow_pos k)))]
  constructor
  · rw [Nat.pow_add]
    exact Nat.mul_le_mul_right _ (Nat.log2_self_le hn)
  · rw [Nat.add_right_comm, Nat.pow_add]
    exact Nat.mul_lt_mul_of_pos_right Nat.lt_log2_self (Nat.two_pow_pos k)

namespace Format

/-- Every number of the format `G` is also one of `F`. -/
structure Within (G F : Format) : Prop where
  precision_le : G.precision ≤ F.precision
  scale_le : G.scale ≤ F.scale
  range_le : G.range + (F.scale - G.scale) ≤ F.range

theorem single_within_double : Within .single .double where
  precision_le := by decide
  scale_le := by decide
  range_le := by decide

theorem roundUnits_of_spacing_dvd
    {F : Format} {units num den : Nat} (hden : 0 < den) (hnum : num = units * den)
    (hspacing : F.spacing units ∣ units) :
    F.roundUnits num den = units := by
  obtain ⟨k, hk⟩ := hspacing
  have hquotient : num / den = units := by
    rw [hnum, Nat.mul_div_cancel units hden]
  have hmultiple : num = k * (den * F.spacing units) := by
    rw [hnum]
    calc
      units * den = F.spacing units * k * den := by rw [← hk]
      _ = k * (den * F.spacing units) := by
        rw [Nat.mul_comm (F.spacing units), Nat.mul_assoc, Nat.mul_comm (F.spacing units)]
  have hpos : 0 < den * F.spacing units := Nat.mul_pos hden (Nat.two_pow_pos _)
  simp only [roundUnits, hquotient]
  rw [hmultiple, nearest_mul_self k _ hpos, Nat.mul_comm]
  exact hk.symm

theorem spacing_dvd_mul_two_pow_of_within
    {G F : Format} (h : G.Within F) {units : Nat} (k : Nat)
    (hspacing : G.spacing units ∣ units) :
    F.spacing (units * 2 ^ k) ∣ units * 2 ^ k := by
  by_cases hz : units = 0
  · simp [hz]
  have hlog : (units * 2 ^ k).log2 = units.log2 + k := log2_mul_two_pow hz k
  have hle : units.log2 + k + 1 - F.precision ≤ units.log2 + 1 - G.precision + k := by
    have hprecision := h.precision_le
    omega
  rw [spacing, hlog]
  refine Nat.dvd_trans (Nat.pow_dvd_pow 2 hle) ?_
  rw [Nat.pow_add]
  exact Nat.mul_dvd_mul_right hspacing _

end Format

namespace Binary

variable {F G : Format}

theorem ofRatio_eq_finite
    {negative : Bool} {num den units : Nat} (hden : 0 < den)
    (hnum : num * 2 ^ F.scale = units * den) (hunits : F.Represents units) :
    (ofRatio negative num den : Binary F) = .finite negative units hunits := by
  have hround := Format.roundUnits_of_spacing_dvd hden hnum hunits.1
  simp only [ofRatio, hround, hunits.2, dite_true]

/-- A number that is rounded to a wider format and back is the number itself. -/
theorem reformat_reformat (h : G.Within F) (x : Binary G) :
    (reformat (reformat x : Binary F) : Binary G) = x := by
  cases x with
  | nan => rfl
  | infinity negative => rfl
  | finite negative units hunits =>
      obtain ⟨k, hk⟩ : ∃ k, F.scale = G.scale + k := Nat.exists_eq_add_of_le h.scale_le
      have hwide : units * 2 ^ F.scale = units * 2 ^ k * 2 ^ G.scale := by
        rw [hk, Nat.add_comm, Nat.pow_add, Nat.mul_assoc]
      have hrange : G.range + k ≤ F.range := by
        have hrange := h.range_le
        omega
      have hrepresents : F.Represents (units * 2 ^ k) := by
        refine ⟨Format.spacing_dvd_mul_two_pow_of_within h k hunits.1, ?_⟩
        calc
          units * 2 ^ k < 2 ^ G.range * 2 ^ k :=
            Nat.mul_lt_mul_of_pos_right hunits.2 (Nat.two_pow_pos k)
          _ = 2 ^ (G.range + k) := (Nat.pow_add 2 _ _).symm
          _ ≤ 2 ^ F.range := Nat.pow_le_pow_right (by decide) hrange
      change reformat (ofRatio negative units (2 ^ G.scale) : Binary F) = _
      rw [ofRatio_eq_finite (Nat.two_pow_pos _) hwide hrepresents]
      exact ofRatio_eq_finite (Nat.two_pow_pos _) hwide.symm hunits

end Binary

end Criteria
