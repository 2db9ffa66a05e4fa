import Criteria.Proofs.Number.NearestNumber
import Mathlib.Data.Int.ConditionallyCompleteOrder
import Mathlib.Order.WithBotTop

/-!
# Rounding is monotone

The numbers of a format lie on one line with the ratios, between the two infinities.  A ratio
that is not above another one is not rounded to a number above that of the other: two numbers in
the wrong order would be nearest only to the ratio in the middle between them, and a ratio is
rounded in only one way.  This holds of rounding to integers and of rounding to a format, also
where a number is too large for the format.
-/

namespace Criteria

/-- Two candidates that are nearest in the order opposite to that of the ratios are nearest to
one ratio, the middle between them. -/
theorem eq_of_crossed {p q v w : ℚ} (hle : p ≤ q) (hlt : w < v)
    (hv : |p - v| ≤ |p - w|) (hw : |q - w| ≤ |q - v|) : p = q := by
  have hbelow : v + w ≤ 2 * p := by
    rcases abs_cases (p - v) with ⟨hpv, _⟩ | ⟨hpv, _⟩ <;>
      rcases abs_cases (p - w) with ⟨hpw, _⟩ | ⟨hpw, _⟩ <;> linarith
  have habove : 2 * q ≤ v + w := by
    rcases abs_cases (q - v) with ⟨hqv, _⟩ | ⟨hqv, _⟩ <;>
      rcases abs_cases (q - w) with ⟨hqw, _⟩ | ⟨hqw, _⟩ <;> linarith
  linarith

theorem IsNearestInt.mono {p q : ℚ} {m n : Int} (hm : IsNearestInt p m) (hn : IsNearestInt q n)
    (hle : p ≤ q) : m ≤ n := by
  by_contra hlt
  have hcast : (n : ℚ) < m := by exact_mod_cast not_le.mp hlt
  obtain rfl := eq_of_crossed hle hcast (hm.error_le n) (hn.error_le m)
  exact hlt (hm.unique hn).le

/-- An integer is the one nearest to itself. -/
theorem isNearestInt_cast (n : Int) : IsNearestInt n n := by
  rw [isNearestInt_iff]
  simp

namespace Format

variable (F : Format)

/-- A ratio is at least as near to the magnitude that it is rounded to as to the one that another
ratio is rounded to. -/
theorem roundUnits_error_le
    (hprecision : 2 ≤ F.precision) {num den : Nat} (hden : 0 < den) (num' den' : Nat) :
    |(num / den : ℚ) - F.roundUnits num den| ≤ |(num / den : ℚ) - F.roundUnits num' den'| := by
  by_cases hne : (F.roundUnits num' den' : Int) = F.roundUnits num den
  · rw [Int.ofNat_inj.mp hne]
  · have hother : F.spacing (F.roundUnits num' den' : Int).natAbs ∣
        (F.roundUnits num' den' : Int).natAbs := F.spacing_dvd_roundUnits num' den'
    exact_mod_cast (F.roundUnits_isNearer hprecision hden hother hne).error_le

theorem roundUnits_mono
    (hprecision : 2 ≤ F.precision) {num den num' den' : Nat} (hden : 0 < den) (hden' : 0 < den')
    (hle : (num / den : ℚ) ≤ num' / den') : F.roundUnits num den ≤ F.roundUnits num' den' := by
  by_contra hlt
  have hcast : (F.roundUnits num' den' : ℚ) < F.roundUnits num den := by
    exact_mod_cast not_le.mp hlt
  have hsame : (num / den : ℚ) = num' / den' :=
    eq_of_crossed hle hcast (F.roundUnits_error_le hprecision hden num' den')
      (F.roundUnits_error_le hprecision hden' num den)
  have hcross : num * den' = num' * den := by
    rw [div_eq_div_iff (by positivity) (by positivity)] at hsame
    exact_mod_cast hsame
  exact hlt (F.roundUnits_congr hden hden' hcross).le

theorem roundUnits_eq_zero_of_nonpos
    {num den : Nat} (hden : 0 < den) (h : (num / den : ℚ) ≤ 0) : F.roundUnits num den = 0 := by
  have hden' : (0 : ℚ) < den := by exact_mod_cast hden
  have hnum : (num : ℚ) ≤ 0 := by rwa [div_le_iff₀ hden', zero_mul] at h
  have hzero : num ≤ 0 := by exact_mod_cast hnum
  exact F.roundUnits_eq_zero (by omega)

end Format

/-- The ratios with an infinity at either end. -/
abbrev Extended : Type :=
  WithBotTop ℚ

/-- The number of a format that a signed count of units is, or an infinity where the count is
out of the range. -/
def Format.reach (F : Format) (units : Int) : Extended :=
  if units ≤ -(2 ^ F.range : Nat) then ⊥
  else if (2 ^ F.range : Nat) ≤ units then ⊤
  else ((units / (2 ^ F.scale : Nat) : ℚ) : Extended)

theorem Format.reach_mono (F : Format) : Monotone F.reach := by
  intro m n hle
  simp only [reach]
  split
  · exact bot_le
  · split
    · rw [if_neg (by omega), if_pos (by omega)]
    · rw [if_neg (by omega)]
      split
      · exact le_top
      · rw [WithBotTop.coe_le_coe]
        gcongr

namespace Binary

variable {F : Format}

/-- The place of a number among the ratios.  A NaN has none. -/
def number? : Binary F → Option Extended
  | .nan => none
  | .infinity true => some ⊥
  | .infinity false => some ⊤
  | .finite negative units _ => some ((signed negative units / (2 ^ F.scale : Nat) : ℚ) : Extended)

theorem signed_true (units : Nat) : signed true units = -(units : Int) := rfl

theorem signed_false (units : Nat) : signed false units = units := rfl

/-- Where a ratio is rounded to, whether the count of units is within the range or not. -/
theorem number?_ofRatio (negative : Bool) (num den : Nat) :
    (ofRatio negative num den : Binary F).number? =
      some (F.reach (signed negative (F.roundUnits (num * 2 ^ F.scale) den))) := by
  have hpositive := Nat.two_pow_pos F.range
  simp only [ofRatio]
  split
  next hrange =>
    have hbelow : ¬ signed negative (F.roundUnits (num * 2 ^ F.scale) den) ≤
        -(2 ^ F.range : Nat) := by
      cases negative <;> simp only [signed] <;> omega
    have habove : ¬ (2 ^ F.range : Nat) ≤
        signed negative (F.roundUnits (num * 2 ^ F.scale) den) := by
      cases negative <;> simp only [signed] <;> omega
    simp only [number?, Format.reach, if_neg hbelow, if_neg habove]
  next hrange =>
    cases negative with
    | true =>
        rw [signed_true, Format.reach, if_pos (by omega)]
        rfl
    | false =>
        rw [signed_false, Format.reach, if_neg (by omega), if_pos (by omega)]
        rfl

/-- The signed magnitudes that two ratios are rounded to are in the order of the ratios. -/
theorem signed_roundUnits_mono
    (hprecision : 2 ≤ F.precision) {negative negative' : Bool} {num den num' den' : Nat}
    (hden : 0 < den) (hden' : 0 < den')
    (hle : (signed negative num / den : ℚ) ≤ signed negative' num' / den') :
    signed negative (F.roundUnits num den) ≤ signed negative' (F.roundUnits num' den') := by
  have hnonneg : ∀ n d : Nat, (0 : ℚ) ≤ n / d := fun n d => by positivity
  cases negative with
  | false =>
      cases negative' with
      | false =>
          simp only [signed_false, Int.cast_natCast] at hle ⊢
          exact_mod_cast F.roundUnits_mono hprecision hden hden' hle
      | true =>
          -- Only where both ratios are zero is one that is not negative below the other.
          simp only [signed_false, signed_true, Int.cast_neg, Int.cast_natCast, neg_div] at hle ⊢
          have hzero := F.roundUnits_eq_zero_of_nonpos hden
            (hle.trans (neg_nonpos.mpr (hnonneg num' den')))
          have hzero' := F.roundUnits_eq_zero_of_nonpos hden'
            (neg_nonneg.mp ((hnonneg num den).trans hle))
          rw [hzero, hzero']
          rfl
  | true =>
      cases negative' with
      | false =>
          rw [signed_true, signed_false]
          omega
      | true =>
          simp only [signed_true, Int.cast_neg, Int.cast_natCast, neg_div, neg_le_neg_iff] at hle ⊢
          exact_mod_cast F.roundUnits_mono hprecision hden' hden hle

/-- The number is what the format makes of a ratio or of an infinity. -/
inductive Rounds : Extended → Binary F → Prop
  | bottom : Rounds ⊥ (.infinity true)
  | top : Rounds ⊤ (.infinity false)
  | ratio (negative : Bool) (num : Nat) {den : Nat} (hden : 0 < den) :
      Rounds ((signed negative num / den : ℚ) : Extended) (ofRatio negative num den)

theorem Rounds.exists_number? {a : Extended} {x : Binary F} (h : Rounds a x) :
    ∃ b, x.number? = some b := by
  cases h with
  | bottom => exact ⟨⊥, rfl⟩
  | top => exact ⟨⊤, rfl⟩
  | ratio negative num hden => exact ⟨_, number?_ofRatio negative num _⟩

/-- The number does not lie above the other one. -/
def AtMost (x y : Binary F) : Prop :=
  ∃ a b, x.number? = some a ∧ y.number? = some b ∧ a ≤ b

/-- Rounding keeps the order of ratios and infinities. -/
theorem Rounds.mono
    (hprecision : 2 ≤ F.precision) {a b : Extended} {x y : Binary F}
    (hx : Rounds a x) (hy : Rounds b y) (hle : a ≤ b) : x.AtMost y := by
  obtain ⟨c, hc⟩ := hx.exists_number?
  obtain ⟨d, hd⟩ := hy.exists_number?
  cases hx with
  | bottom => exact ⟨⊥, d, rfl, hd, bot_le⟩
  | top =>
      cases hy with
      | top => exact ⟨⊤, ⊤, rfl, rfl, le_rfl⟩
      | bottom => simp at hle
      | ratio negative num hden => simp at hle
  | ratio negative num hden =>
      cases hy with
      | top => exact ⟨c, ⊤, hc, rfl, le_top⟩
      | bottom => simp at hle
      | ratio negative' num' hden' =>
          rw [WithBotTop.coe_le_coe] at hle
          refine ⟨_, _, number?_ofRatio negative num _, number?_ofRatio negative' num' _, ?_⟩
          apply F.reach_mono
          apply signed_roundUnits_mono hprecision hden hden'
          rw [signed_mul, signed_mul, Int.cast_mul, Int.cast_mul, mul_div_right_comm,
            mul_div_right_comm]
          gcongr

theorem rounds_ofInt (i : Int) : Rounds ((i : ℚ) : Extended) (ofInt i : Binary F) := by
  have h : Rounds (F := F) _ _ := .ratio (i < 0) i.natAbs Nat.one_pos
  rwa [signed_natAbs, Nat.cast_one, div_one] at h

/-- A number of the format is not rounded. -/
theorem rounds_number? {a : Extended} {x : Binary F} (h : x.number? = some a) : Rounds a x := by
  cases x with
  | nan => cases h
  | infinity negative =>
      cases negative with
      | true =>
          obtain rfl := Option.some.inj h
          exact .bottom
      | false =>
          obtain rfl := Option.some.inj h
          exact .top
  | finite negative units hunits =>
      obtain rfl := Option.some.inj h
      rw [← ofRatio_eq_finite (Nat.two_pow_pos F.scale) rfl hunits]
      exact .ratio negative units (Nat.two_pow_pos F.scale)

theorem rounds_reformat {G : Format} {a : Extended} {x : Binary G} (h : x.number? = some a) :
    Rounds a (reformat x : Binary F) := by
  cases x with
  | nan => cases h
  | infinity negative =>
      cases negative with
      | true =>
          obtain rfl := Option.some.inj h
          exact .bottom
      | false =>
          obtain rfl := Option.some.inj h
          exact .top
  | finite negative units hunits =>
      obtain rfl := Option.some.inj h
      exact .ratio negative units (Nat.two_pow_pos G.scale)

theorem AtMost.reformat
    (hprecision : 2 ≤ F.precision) {G : Format} {x y : Binary G} (h : x.AtMost y) :
    (reformat x : Binary F).AtMost (reformat y) := by
  obtain ⟨a, b, ha, hb, hab⟩ := h
  exact (rounds_reformat ha).mono hprecision (rounds_reformat hb) hab

end Binary

end Criteria
