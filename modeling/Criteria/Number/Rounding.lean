import Criteria.Number.Binary

/-!
# Rounding to nearest

Every conversion between numbers rounds to the nearest candidate, and a tie goes to the
even one. One division with remainder does it for all of them: a quotient is rounded to
a whole number, and a magnitude is rounded to a binary format by rounding its quotient
by the spacing of the format around it. What rounding yields is always a magnitude of
the format, or too large for it and then infinite.
-/

namespace Criteria

/-- The natural number nearest to `num / den`; a tie goes to the even one. -/
def nearest (num den : Nat) : Nat :=
  let quotient := num / den
  let remainder := num % den
  if 2 * remainder < den then quotient
  else if den < 2 * remainder then quotient + 1
  else quotient + quotient % 2

theorem nearest_le (num den : Nat) : nearest num den ≤ num / den + 1 := by
  simp only [nearest]
  grind

namespace Format

variable (F : Format)

/-- The count of units nearest to `num / den` units among those with no more
significant bits than the format has. -/
def roundUnits (num den : Nat) : Nat :=
  let spacing := F.spacing (num / den)
  nearest num (den * spacing) * spacing

theorem spacing_mul_two_pow_dvd {m : Nat} (k : Nat) (hm : m < 2 ^ F.precision) :
    F.spacing (m * 2 ^ k) ∣ 2 ^ k := by
  have hp := F.precision_pos
  refine Nat.pow_dvd_pow 2 ?_
  by_cases hz : m = 0
  · rw [hz, Nat.zero_mul, Nat.log2_zero]
    omega
  · have hlog : (m * 2 ^ k).log2 < F.precision + k := by
      rw [Nat.log2_lt (Nat.mul_ne_zero hz (Nat.ne_of_gt (Nat.two_pow_pos k))), Nat.pow_add]
      exact Nat.mul_lt_mul_of_pos_right hm (Nat.two_pow_pos k)
    omega

/-- A multiple of a power of two by at most `2 ^ precision` needs no more bits than the
format has. -/
theorem spacing_dvd_mul_two_pow {m : Nat} (k : Nat) (hm : m ≤ 2 ^ F.precision) :
    F.spacing (m * 2 ^ k) ∣ m * 2 ^ k := by
  have hp := F.precision_pos
  by_cases hlt : m < 2 ^ F.precision
  · exact Nat.dvd_trans (F.spacing_mul_two_pow_dvd k hlt) (Nat.dvd_mul_left _ _)
  · have hm : m = 2 ^ F.precision := by omega
    rw [hm, ← Nat.pow_add, spacing, Nat.log2_two_pow]
    exact Nat.pow_dvd_pow 2 (by omega)

theorem nearest_le_two_pow_precision (num den : Nat) :
    nearest num (den * F.spacing (num / den)) ≤ 2 ^ F.precision := by
  refine Nat.le_trans (nearest_le _ _) ?_
  rw [← Nat.div_div_eq_div_mul]
  refine (Nat.div_lt_iff_lt_mul (Nat.two_pow_pos _)).mpr ?_
  rw [← Nat.pow_add]
  exact Nat.lt_of_lt_of_le Nat.lt_log2_self (Nat.pow_le_pow_right (by decide) (by omega))

theorem spacing_dvd_roundUnits (num den : Nat) :
    F.spacing (F.roundUnits num den) ∣ F.roundUnits num den :=
  F.spacing_dvd_mul_two_pow _ (F.nearest_le_two_pow_precision num den)

end Format

namespace Binary

variable {F : Format}

/-- The number of the format nearest to `± num / den`, or an infinity where that is too
large. -/
def ofRatio (negative : Bool) (num den : Nat) : Binary F :=
  let units := F.roundUnits (num * 2 ^ F.scale) den
  if h : units < 2 ^ F.range then
    .finite negative units ⟨F.spacing_dvd_roundUnits _ _, h⟩
  else .infinity negative

/-- The number nearest to an integer. -/
def ofInt (i : Int) : Binary F :=
  ofRatio (i < 0) i.natAbs 1

/-- The number nearest to a number of another format. -/
def reformat {G : Format} : Binary G → Binary F
  | .nan => .nan
  | .infinity negative => .infinity negative
  | .finite negative units _ => ofRatio negative units (2 ^ G.scale)

/-- The integer nearest to a finite number. -/
def toInt? : Binary F → Option Int
  | .finite negative units _ => some (signed negative (nearest units (2 ^ F.scale)))
  | _ => none

/-- The whole number nearest to a number, as a number of the format. The sign is kept, also
that of a zero. -/
def toWhole : Binary F → Binary F
  | .finite negative units _ => ofRatio negative (nearest units (2 ^ F.scale)) 1
  | x => x

end Binary

end Criteria
