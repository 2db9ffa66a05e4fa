import Criteria.Proofs.Number.NearestInteger
import Criteria.Proofs.Number.Ratio
import Mathlib.Data.Nat.Cast.Order.Field

/-!
# The number of a format nearest to a ratio

Around a ratio the numbers of a format are the multiples of a spacing, and among these the
rounded one is nearest.  The other numbers of the format are below the greatest power of two
within the ratio, which is a multiple of the spacing, so they are farther away.  A whole number
is rounded in the same way as its multiple by a power of two, so an integer that is converted
and back has only lost the bits that the format has no room for.
-/

namespace Criteria

namespace Format

variable (F : Format)

/-- The last of the significant bits is zero. -/
def HasEvenSignificand (units : Nat) : Prop :=
  2 * F.spacing units ∣ units

theorem hasEvenSignificand_mul_two_pow
    (hprecision : 2 ≤ F.precision) {m : Nat} (k : Nat) (hm : m ≤ 2 ^ F.precision) (heven : 2 ∣ m) :
    F.HasEvenSignificand (m * 2 ^ k) := by
  rcases hm.lt_or_eq with hlt | rfl
  · exact Nat.mul_dvd_mul heven (F.spacing_mul_two_pow_dvd k hlt)
  · rw [HasEvenSignificand, ← Nat.pow_add, spacing, Nat.log2_two_pow, ← Nat.pow_succ']
    exact Nat.pow_dvd_pow 2 (by omega)

/-- A magnitude of the format that is no multiple of the spacing around another one is below
the greatest power of two in that one. -/
theorem lt_two_pow_log2 {units other : Nat}
    (hother : F.spacing other ∣ other) (h : ¬ F.spacing units ∣ other) :
    other < 2 ^ units.log2 := by
  have hlog : other.log2 < units.log2 := by
    by_contra hle
    refine h (Nat.dvd_trans (Nat.pow_dvd_pow 2 ?_) hother)
    omega
  exact Nat.lt_log2_self.trans_le (Nat.pow_le_pow_right (by decide) hlog)

/-- Whatever its sign, no magnitude of the format is nearer to a ratio than the one that the
ratio is rounded to. -/
theorem roundUnits_isNearer
    (hprecision : 2 ≤ F.precision) {num den : Nat} (hden : 0 < den)
    {other : Int} (hother : F.spacing other.natAbs ∣ other.natAbs)
    (hne : other ≠ F.roundUnits num den) :
    IsNearer (num / den) (F.HasEvenSignificand (F.roundUnits num den))
      (F.roundUnits num den) other := by
  have hspacing : (0 : ℚ) < F.spacing (num / den) := by exact_mod_cast F.spacing_pos _
  have hround : (F.roundUnits num den : ℚ) =
      (nearest num (den * F.spacing (num / den)) : Int) * F.spacing (num / den) := by
    simp [roundUnits]
  have hnearest : IsNearestInt ((num / den : ℚ) / F.spacing (num / den))
      (nearest num (den * F.spacing (num / den))) := by
    rw [div_div]
    exact_mod_cast nearest_isNearestInt num (Nat.mul_pos hden (F.spacing_pos _))
  by_cases hdvd : F.spacing (num / den) ∣ other.natAbs
  · obtain ⟨k, rfl⟩ : ∃ k : Int, other = k * F.spacing (num / den) := by
      obtain ⟨k, hk⟩ := Int.natCast_dvd.mpr hdvd
      exact ⟨k, hk.trans (mul_comm _ _)⟩
    have hk : k ≠ nearest num (den * F.spacing (num / den)) := by
      rintro rfl
      exact hne (by simp [roundUnits])
    have hnearer := hnearest.mul hspacing hk
    rw [← hround] at hnearer
    rw [Int.cast_mul, Int.cast_natCast (F.spacing (num / den))]
    refine hnearer.imp fun heven => ?_
    exact F.hasEvenSignificand_mul_two_pow hprecision _ (F.nearest_le_two_pow_precision num den)
      (Int.natCast_dvd_natCast.mp heven.two_dvd)
  · left
    have hbelow : other.natAbs < 2 ^ (num / den).log2 := F.lt_two_pow_log2 hother hdvd
    have hpositive : num / den ≠ 0 := by
      intro hzero
      rw [hzero, Nat.log2_zero] at hbelow
      exact hdvd (by rw [Nat.lt_one_iff.mp hbelow]; exact Nat.dvd_zero _)
    have habove : ((2 ^ (num / den).log2 : Nat) : ℚ) ≤ num / den :=
      (Nat.cast_le.mpr (Nat.log2_self_le hpositive)).trans Nat.cast_div_le
    have herror : |(num / den : ℚ) - F.roundUnits num den| ≤
        |(num / den : ℚ) - (2 ^ (num / den).log2 : Nat)| := by
      obtain ⟨j, hj⟩ := F.spacing_dvd_two_pow_log2 (num / den)
      rw [hj, Nat.cast_mul, mul_comm (_ : ℚ) (j : ℚ), hround]
      exact hnearest.mul_error_le hspacing j
    calc
      |(num / den : ℚ) - F.roundUnits num den|
          ≤ |(num / den : ℚ) - (2 ^ (num / den).log2 : Nat)| := herror
      _ = num / den - (2 ^ (num / den).log2 : Nat) := abs_of_nonneg (sub_nonneg.mpr habove)
      _ < num / den - other := by
        refine sub_lt_sub_left ?_ _
        have hlt : other < (2 ^ (num / den).log2 : Nat) := by omega
        exact_mod_cast hlt
      _ ≤ |(num / den : ℚ) - other| := le_abs_self _

/-- Rounding does not go above a power of two. -/
theorem roundUnits_le_two_pow {num den k : Nat} (hden : 0 < den) (h : num ≤ 2 ^ k * den) :
    F.roundUnits num den ≤ 2 ^ k := by
  have hquotient : num / den ≤ 2 ^ k := Nat.div_le_of_le_mul (by rwa [Nat.mul_comm])
  have hlog : (num / den).log2 ≤ k := by
    by_cases hzero : num / den = 0
    · rw [hzero, Nat.log2_zero]
      exact Nat.zero_le k
    · exact (Nat.pow_le_pow_iff_right (by decide)).mp ((Nat.log2_self_le hzero).trans hquotient)
  obtain ⟨j, hj⟩ := (F.spacing_dvd_two_pow_log2 (num / den)).trans (Nat.pow_dvd_pow 2 hlog)
  have hcount : nearest num (den * F.spacing (num / den)) ≤ j := by
    refine nearest_le_of_le_mul (Nat.mul_pos hden (F.spacing_pos _)) ?_
    calc
      num ≤ 2 ^ k * den := h
      _ = j * (den * F.spacing (num / den)) := by rw [hj]; ring
  calc
    F.roundUnits num den ≤ j * F.spacing (num / den) := Nat.mul_le_mul_right _ hcount
    _ = 2 ^ k := by rw [hj, Nat.mul_comm]

/-- What is at most a power of two well within the range is within the range. -/
theorem mul_two_pow_scale_lt {n k : Nat} (hrange : k + F.scale < F.range) (h : n ≤ 2 ^ k) :
    n * 2 ^ F.scale < 2 ^ F.range := by
  calc
    n * 2 ^ F.scale ≤ 2 ^ k * 2 ^ F.scale := Nat.mul_le_mul_right _ h
    _ = 2 ^ (k + F.scale) := (Nat.pow_add 2 k F.scale).symm
    _ < 2 ^ F.range := Nat.pow_lt_pow_right (by decide) hrange

/-- A whole number of at most `precision` bits is not rounded. -/
theorem roundUnits_eq_self {n : Nat} (hn : n ≤ 2 ^ F.precision) : F.roundUnits n 1 = n := by
  have hspacing := F.spacing_dvd_mul_two_pow 0 hn
  rw [Nat.pow_zero, Nat.mul_one] at hspacing
  exact roundUnits_of_spacing_dvd Nat.one_pos (Nat.mul_one n).symm hspacing

/-- Rounding a whole number commutes with scaling it by a power of two. -/
theorem roundUnits_mul_two_pow (n k : Nat) :
    F.roundUnits (n * 2 ^ k) 1 = F.roundUnits n 1 * 2 ^ k := by
  by_cases hsmall : n ≤ 2 ^ F.precision
  · rw [F.roundUnits_eq_self hsmall]
    exact roundUnits_of_spacing_dvd Nat.one_pos (Nat.mul_one _).symm
      (F.spacing_dvd_mul_two_pow k hsmall)
  · have hpositive : n ≠ 0 := by
      rintro rfl
      exact hsmall (Nat.zero_le _)
    have hlog : F.precision ≤ n.log2 := (Nat.le_log2 hpositive).mpr (by omega)
    have hspacing : F.spacing (n * 2 ^ k) = F.spacing n * 2 ^ k := by
      rw [spacing, spacing, log2_mul_two_pow hpositive, ← Nat.pow_add]
      congr 1
      omega
    simp only [roundUnits, Nat.div_one, Nat.one_mul, hspacing]
    rw [nearest_mul_mul_right n _ (Nat.two_pow_pos k), Nat.mul_assoc]

end Format

namespace Binary

variable {F : Format}

/-- The significand is even; that of an infinity or a NaN is not. -/
def HasEvenSignificand : Binary F → Prop
  | .finite _ units _ => F.HasEvenSignificand units
  | _ => False

/-- The number is finite and nearer to the ratio than every other finite number of the format,
or as near as another one and its significand is even. -/
def IsNearest (q : ℚ) (x : Binary F) : Prop :=
  ∃ v, x.ratio? = some v ∧
    ∀ (y : Binary F) (w : ℚ), y.ratio? = some w → w ≠ v → IsNearer q x.HasEvenSignificand v w

theorem signed_roundUnits_isNearer
    (hprecision : 2 ≤ F.precision) (negative : Bool) {num den : Nat} (hden : 0 < den)
    {other : Int} (hother : F.spacing other.natAbs ∣ other.natAbs)
    (hne : other ≠ signed negative (F.roundUnits num den)) :
    IsNearer (signed negative num / den) (F.HasEvenSignificand (F.roundUnits num den))
      (signed negative (F.roundUnits num den)) other := by
  cases negative with
  | false => exact F.roundUnits_isNearer hprecision hden hother hne
  | true =>
      have hopposite : F.spacing (-other).natAbs ∣ (-other).natAbs := by rwa [Int.natAbs_neg]
      have hdistinct : -other ≠ F.roundUnits num den := by
        intro heq
        exact hne (by rw [← neg_neg other, heq]; rfl)
      have hnearer := (F.roundUnits_isNearer hprecision hden hopposite hdistinct).neg
      rw [Int.cast_neg, neg_neg, ← neg_div] at hnearer
      simpa only [signed, if_true, Int.cast_neg, Int.cast_natCast] using hnearer

/-- A ratio that is not too large for the format is rounded to the number nearest to it. -/
theorem ofRatio_isNearest
    (hprecision : 2 ≤ F.precision) (negative : Bool) {num den : Nat} (hden : 0 < den)
    (hrange : F.roundUnits (num * 2 ^ F.scale) den < 2 ^ F.range) :
    (ofRatio negative num den : Binary F).IsNearest (signed negative num / den) := by
  have hunits : F.Represents (F.roundUnits (num * 2 ^ F.scale) den) :=
    ⟨F.spacing_dvd_roundUnits _ _, hrange⟩
  have hfinite : (ofRatio negative num den : Binary F) = .finite negative _ hunits :=
    (ofRatio_eq_finite_iff hunits).mpr rfl
  have hscale : (0 : ℚ) < (2 ^ F.scale : Nat) := by exact_mod_cast Nat.two_pow_pos F.scale
  have hratio : (signed negative num / den : ℚ) =
      signed negative (num * 2 ^ F.scale) / den / (2 ^ F.scale : Nat) := by
    rw [signed_mul, Int.cast_mul, Int.cast_natCast, div_right_comm,
      mul_div_cancel_right₀ _ hscale.ne']
  rw [hfinite, hratio]
  refine ⟨_, rfl, ?_⟩
  intro y w hw hne
  cases y with
  | nan => cases hw
  | infinity other => cases hw
  | finite other units hother =>
      obtain rfl := Option.some.inj hw
      have hdistinct : signed other units ≠
          signed negative (F.roundUnits (num * 2 ^ F.scale) den) := by
        intro heq
        exact hne (by rw [heq])
      have hmagnitude : F.spacing (signed other units).natAbs ∣ (signed other units).natAbs := by
        rw [natAbs_signed]
        exact hother.1
      exact (signed_roundUnits_isNearer hprecision negative hden hmagnitude hdistinct).div hscale

/-- An integer that is not too large for the format is converted to the number nearest to it. -/
theorem ofInt_isNearest
    (hprecision : 2 ≤ F.precision) {i : Int}
    (hrange : F.roundUnits i.natAbs 1 * 2 ^ F.scale < 2 ^ F.range) :
    (ofInt i : Binary F).IsNearest i := by
  have h := ofRatio_isNearest hprecision (i < 0) Nat.one_pos
    (by rwa [F.roundUnits_mul_two_pow] : F.roundUnits (i.natAbs * 2 ^ F.scale) 1 < 2 ^ F.range)
  rwa [signed_natAbs, Nat.cast_one, div_one] at h

/-- An integer that is rounded to a magnitude within the range becomes a finite number. -/
theorem ofInt_eq_finite
    {i : Int} {n : Nat} (hround : F.roundUnits i.natAbs 1 = n)
    (hunits : F.Represents (n * 2 ^ F.scale)) :
    (ofInt i : Binary F) = .finite (i < 0) (n * 2 ^ F.scale) hunits := by
  rw [ofInt, ofRatio_eq_finite_iff, F.roundUnits_mul_two_pow, hround]

/-- Converted back, the integer is the one that only the precision has rounded. -/
theorem toInt?_ofInt {i : Int} (hrange : F.roundUnits i.natAbs 1 * 2 ^ F.scale < 2 ^ F.range) :
    (ofInt i : Binary F).toInt? = some (signed (i < 0) (F.roundUnits i.natAbs 1)) := by
  have hunits : F.Represents (F.roundUnits i.natAbs 1 * 2 ^ F.scale) := by
    refine ⟨?_, hrange⟩
    rw [← F.roundUnits_mul_two_pow]
    exact F.spacing_dvd_roundUnits _ _
  rw [ofInt_eq_finite rfl hunits, toInt?, nearest_mul_self _ _ (Nat.two_pow_pos _)]

end Binary

end Criteria
