import Criteria.Number.Rounding
import Mathlib.Algebra.Order.Ring.Abs
import Mathlib.Algebra.Ring.Int.Parity
import Mathlib.Tactic.Linarith
import Mathlib.Tactic.Ring

/-!
# The integer nearest to a ratio

Which integer is nearest to a ratio is a matter of distances alone: no other integer is nearer,
and if another one is as near, then the integer is even.  Every ratio has at most one such
integer, and the quotient with remainder finds it.  The conversion of a floating-point number to
an integer therefore gives the integer nearest to the number.
-/

namespace Criteria

/-- The first candidate is nearer to the ratio than the second one, or as near and even. -/
def IsNearer (q : ℚ) (even : Prop) (v w : ℚ) : Prop :=
  |q - v| < |q - w| ∨ |q - v| = |q - w| ∧ even

namespace IsNearer

variable {q v w : ℚ} {even : Prop}

theorem of_error_le (hle : |q - v| ≤ |q - w|) (heven : |q - v| = |q - w| → even) :
    IsNearer q even v w := by
  rcases hle.lt_or_eq with hlt | heq
  · exact .inl hlt
  · exact .inr ⟨heq, heven heq⟩

theorem error_le (h : IsNearer q even v w) : |q - v| ≤ |q - w| := by
  rcases h with hlt | ⟨heq, -⟩
  · exact hlt.le
  · exact heq.le

theorem even_of_error_eq (h : IsNearer q even v w) (heq : |q - v| = |q - w|) : even := by
  rcases h with hlt | ⟨-, heven⟩
  · exact absurd heq hlt.ne
  · exact heven

theorem imp {even' : Prop} (h : IsNearer q even v w) (himp : even → even') :
    IsNearer q even' v w :=
  of_error_le h.error_le fun heq => himp (h.even_of_error_eq heq)

theorem neg (h : IsNearer q even v w) : IsNearer (-q) even (-v) (-w) := by
  simp only [IsNearer, neg_sub_neg, abs_sub_comm _ q]
  exact h

theorem mul {c : ℚ} (hc : 0 < c) (h : IsNearer q even v w) :
    IsNearer (q * c) even (v * c) (w * c) := by
  simp only [IsNearer, ← sub_mul, abs_mul, abs_of_pos hc, mul_lt_mul_iff_left₀ hc,
    mul_left_inj' hc.ne']
  exact h

theorem div {c : ℚ} (hc : 0 < c) (h : IsNearer q even v w) :
    IsNearer (q / c) even (v / c) (w / c) := by
  simp only [div_eq_mul_inv]
  exact h.mul (inv_pos.mpr hc)

end IsNearer

/-- The integer is nearer to the ratio than every other one, or as near as another one and
even. -/
def IsNearestInt (q : ℚ) (n : Int) : Prop :=
  ∀ m : Int, m ≠ n → IsNearer q (Even n) n m

variable {q : ℚ} {n m : Int}

theorem IsNearestInt.error_le (h : IsNearestInt q n) (m : Int) : |q - n| ≤ |q - m| := by
  by_cases hne : m = n
  · rw [hne]
  · exact (h m hne).error_le

/-- An integer is the nearest one exactly if it is at most half of one away, and even if it
is just that. -/
theorem isNearestInt_iff :
    IsNearestInt q n ↔ 2 * |q - n| ≤ 1 ∧ (2 * |q - n| = 1 → Even n) := by
  constructor
  · intro h
    constructor
    · have habove := sq_le_sq.mpr (h.error_le (n + 1))
      have hbelow := sq_le_sq.mpr (h.error_le (n - 1))
      push_cast at habove hbelow
      rcases abs_cases (q - n) with ⟨habs, -⟩ | ⟨habs, -⟩
      · linarith
      · linarith
    · intro htie
      -- The next integer on the side of the ratio is as near.
      rcases abs_cases (q - n) with ⟨habs, -⟩ | ⟨habs, -⟩
      · have hmirror : q - (n + 1 : Int) = -(q - n) := by
          push_cast
          linarith
        exact (h (n + 1) (by omega)).even_of_error_eq (by rw [hmirror, abs_neg])
      · have hmirror : q - (n - 1 : Int) = -(q - n) := by
          push_cast
          linarith
        exact (h (n - 1) (by omega)).even_of_error_eq (by rw [hmirror, abs_neg])
  · rintro ⟨herror, heven⟩ m hne
    have hgap : (1 : ℚ) ≤ |(n : ℚ) - m| := by
      exact_mod_cast Int.one_le_abs (sub_ne_zero.mpr hne.symm)
    have htriangle : |(n : ℚ) - m| ≤ |q - n| + |q - m| := by
      rw [abs_sub_comm q (n : ℚ)]
      exact abs_sub_le _ _ _
    refine .of_error_le (by linarith) fun heq => heven ?_
    linarith

theorem IsNearestInt.neg (h : IsNearestInt q n) : IsNearestInt (-q) (-n) := by
  intro m hne
  have hnearer := (h (-m) (by omega)).neg
  rw [Int.cast_neg, neg_neg] at hnearer
  rw [Int.cast_neg, even_neg]
  exact hnearer

/-- No ratio has two nearest integers. -/
theorem IsNearestInt.unique (hn : IsNearestInt q n) (hm : IsNearestInt q m) : n = m := by
  by_contra hne
  have heq : |q - n| = |q - m| := le_antisymm (hn.error_le m) (hm.error_le n)
  obtain ⟨a, ha⟩ : Even n := (hn m (Ne.symm hne)).even_of_error_eq heq
  obtain ⟨b, hb⟩ : Even m := (hm n hne).even_of_error_eq heq.symm
  -- Two even integers are two apart, but both are at most half of one away from the ratio.
  have hclose : |(n : ℚ) - m| ≤ 1 := by
    calc
      |(n : ℚ) - m| ≤ |(n : ℚ) - q| + |q - m| := abs_sub_le _ _ _
      _ = 2 * |q - n| := by rw [abs_sub_comm, heq]; ring
      _ ≤ 1 := (isNearestInt_iff.mp hn).1
  have hcloseInt : |n - m| ≤ 1 := by exact_mod_cast hclose
  obtain ⟨hlower, hupper⟩ := abs_le.mp hcloseInt
  omega

/-- Where the quotient by a spacing has a nearest integer, its multiple is the nearest one among
the multiples of the spacing. -/
theorem IsNearestInt.mul {spacing : ℚ} (hpos : 0 < spacing) (h : IsNearestInt (q / spacing) n)
    (hne : m ≠ n) : IsNearer q (Even n) (n * spacing) (m * spacing) := by
  have hnearer := (h m hne).mul hpos
  rwa [div_mul_cancel₀ _ hpos.ne'] at hnearer

theorem IsNearestInt.mul_error_le {spacing : ℚ} (hpos : 0 < spacing)
    (h : IsNearestInt (q / spacing) n) (m : Int) : |q - n * spacing| ≤ |q - m * spacing| := by
  by_cases hne : m = n
  · rw [hne]
  · exact (h.mul hpos hne).error_le

theorem nearest_mul_add (quotient : Nat) {remainder den : Nat} (h : remainder < den) :
    nearest (quotient * den + remainder) den =
      if 2 * remainder < den then quotient
      else if den < 2 * remainder then quotient + 1
      else quotient + quotient % 2 := by
  have hquotient : (quotient * den + remainder) / den = quotient := by
    rw [Nat.mul_comm, Nat.mul_add_div (Nat.zero_lt_of_lt h), Nat.div_eq_of_lt h, Nat.add_zero]
  have hremainder : (quotient * den + remainder) % den = remainder := by
    rw [Nat.mul_add_mod', Nat.mod_eq_of_lt h]
  simp only [nearest, hquotient, hremainder]

/-- Rounding errs by at most half of the denominator, and is to the even side if by just
that. -/
theorem nearest_error (num : Nat) {den : Nat} (hden : 0 < den) :
    2 * |(num : Int) - nearest num den * den| ≤ den ∧
      (2 * |(num : Int) - nearest num den * den| = den → Even (nearest num den : Int)) := by
  obtain ⟨quotient, remainder, hlt, rfl⟩ :
      ∃ quotient remainder, remainder < den ∧ quotient * den + remainder = num :=
    ⟨num / den, num % den, Nat.mod_lt num hden, Nat.div_add_mod' num den⟩
  rw [nearest_mul_add quotient hlt]
  by_cases hbelow : 2 * remainder < den
  · have herror : ((quotient * den + remainder : Nat) : Int) - quotient * den = remainder := by
      push_cast
      ring
    rw [if_pos hbelow, herror, Nat.abs_cast]
    omega
  by_cases habove : den < 2 * remainder
  · have herror : ((quotient * den + remainder : Nat) : Int) - (quotient + 1 : Nat) * den =
        -(den - remainder : Nat) := by
      rw [Nat.cast_sub hlt.le]
      push_cast
      ring
    rw [if_neg hbelow, if_pos habove, herror, abs_neg, Nat.abs_cast]
    omega
  · have htie : 2 * remainder = den := by omega
    have heven : (quotient + quotient % 2) % 2 = 0 := by omega
    have herror :
        |((quotient * den + remainder : Nat) : Int) - (quotient + quotient % 2 : Nat) * den| =
          remainder := by
      subst htie
      rcases Nat.mod_two_eq_zero_or_one quotient with hparity | hparity
      · rw [hparity, Nat.add_zero, Nat.cast_add, Nat.cast_mul, add_sub_cancel_left, Nat.abs_cast]
      · have hup : ((quotient * (2 * remainder) + remainder : Nat) : Int) -
            (quotient + 1 : Nat) * (2 * remainder : Nat) = -remainder := by
          push_cast
          ring
        rw [hparity, hup, abs_neg, Nat.abs_cast]
    rw [if_neg hbelow, if_neg habove, herror]
    refine ⟨by omega, fun _ => ?_⟩
    exact Int.even_iff.mpr (by omega)

/-- The quotient with remainder finds the nearest integer. -/
theorem nearest_isNearestInt (num : Nat) {den : Nat} (hden : 0 < den) :
    IsNearestInt ((num : ℚ) / den) (nearest num den) := by
  have hpos : (0 : ℚ) < den := by exact_mod_cast hden
  have hscaled : 2 * |(num : ℚ) / den - (nearest num den : Int)| * den =
      (2 * |(num : Int) - nearest num den * den| : Int) := by
    push_cast
    rw [mul_assoc, ← abs_of_pos hpos, ← abs_mul, abs_of_pos hpos, sub_mul,
      div_mul_cancel₀ _ hpos.ne']
  obtain ⟨herror, heven⟩ := nearest_error num hden
  rw [isNearestInt_iff]
  constructor
  · refine le_of_mul_le_mul_right ?_ hpos
    rw [hscaled, one_mul]
    exact_mod_cast herror
  · intro htie
    rw [htie, one_mul] at hscaled
    exact heven (by exact_mod_cast hscaled.symm)

theorem nearest_le_of_le_mul {num den k : Nat} (hden : 0 < den) (h : num ≤ k * den) :
    nearest num den ≤ k := by
  obtain ⟨herror, -⟩ := nearest_error num hden
  obtain ⟨hbelow, -⟩ := abs_le.mp (show |(num : Int) - nearest num den * den| ≤ den / 2 by omega)
  by_contra habove
  have hmul : (k + 1) * den ≤ nearest num den * den := Nat.mul_le_mul_right den (by omega)
  rw [Nat.succ_mul] at hmul
  have hmulInt : (k : Int) * den + den ≤ nearest num den * den := by exact_mod_cast hmul
  have hInt : (num : Int) ≤ k * den := by exact_mod_cast h
  omega

namespace Binary

variable {F : Format}

/-- The ratio that a finite number is. -/
def ratio? : Binary F → Option ℚ
  | .finite negative units _ => some (signed negative units / (2 ^ F.scale : Nat))
  | _ => none

theorem natAbs_signed (negative : Bool) (units : Nat) : (signed negative units).natAbs = units := by
  cases negative <;> simp [signed]

theorem signed_mul (negative : Bool) (units k : Nat) :
    signed negative (units * k) = signed negative units * k := by
  cases negative <;> simp [signed]

theorem signed_natAbs (i : Int) : signed (i < 0) i.natAbs = i := by
  simp only [signed, decide_eq_true_eq]
  split <;> omega

theorem signed_isNearestInt (negative : Bool) (num : Nat) {den : Nat} (hden : 0 < den) :
    IsNearestInt ((signed negative num : ℚ) / den) (signed negative (nearest num den)) := by
  have h := nearest_isNearestInt num hden
  cases negative with
  | false => exact h
  | true =>
      have hneg := h.neg
      rw [← neg_div] at hneg
      simpa [signed] using hneg

/-- The conversion to an integer succeeds for the finite numbers, with the nearest integer. -/
theorem toInt?_eq_some_iff {x : Binary F} {n : Int} :
    x.toInt? = some n ↔ ∃ q, x.ratio? = some q ∧ IsNearestInt q n := by
  cases x with
  | nan => simp [toInt?, ratio?]
  | infinity negative => simp [toInt?, ratio?]
  | finite negative units hunits =>
      have hnearest := signed_isNearestInt negative units (Nat.two_pow_pos F.scale)
      simp only [toInt?, ratio?, Option.some.injEq, exists_eq_left']
      constructor
      · rintro rfl
        exact hnearest
      · exact hnearest.unique

end Binary

end Criteria
