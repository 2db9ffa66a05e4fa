import Criteria.Number.Integer
import Criteria.Proofs.Number.Layout
import Criteria.Proofs.Number.Ratio

/-!
# How numbers are written

The layouts of what is written: an integer is its digits after a sign, a decimal is written
with a point or with an exponent.  The decimal that a layout stands for is the one that was
written, up to zeros at its end.
-/

namespace Criteria

namespace Numeral

theorem digits_toDigits (n : Nat) : Digits (Nat.toDigits 10 n) := by
  intro c hc
  exact Nat.isDigit_of_mem_toDigits (by decide) (by decide) hc

/-- The digits of a number do not begin with a superfluous zero. -/
theorem head?_toDigits {n : Nat} (hn : n ≠ 0) : (Nat.toDigits 10 n).head? ≠ some '0' := by
  induction n using Nat.strongRecOn with
  | ind n ih =>
      by_cases hsmall : n < 10
      · rw [Nat.toDigits_of_lt_base hsmall]
        simpa using hn
      · have hdiv : n / 10 ≠ 0 := by omega
        obtain ⟨c, rest, hdigits⟩ :=
          List.exists_cons_of_ne_nil (Nat.toDigits_ne_nil (n := n / 10) (b := 10))
        have hhead := ih (n / 10) (by omega) hdiv
        rw [Nat.toDigits_of_base_le (by decide) (by omega), hdigits]
        rw [hdigits] at hhead
        exact hhead

theorem leading_toDigits (n : Nat) :
    Nat.toDigits 10 n = ['0'] ∨ (Nat.toDigits 10 n).head? ≠ some '0' := by
  by_cases hn : n = 0
  · left
    rw [hn, Nat.toDigits_zero]
  · exact .inr (head?_toDigits hn)

theorem head?_append_ne_zero
    {first : List Char} (hne : first ≠ []) (h : first.head? ≠ some '0') (second : List Char) :
    (first ++ second).head? ≠ some '0' := by
  obtain ⟨c, rest, rfl⟩ := List.exists_cons_of_ne_nil hne
  exact h

theorem digits_replicate_zero (k : Nat) : Digits (List.replicate k '0') := by
  intro c hc
  rw [List.eq_of_mem_replicate hc]
  rfl

/-- Zeros after the digits of a number do not make the first of them superfluous. -/
theorem leading_append_zeros {n e : Nat} (hzero : n = 0 → e = 0) :
    Nat.toDigits 10 n ++ List.replicate e '0' = ['0'] ∨
      (Nat.toDigits 10 n ++ List.replicate e '0').head? ≠ some '0' := by
  by_cases hn : n = 0
  · left
    rw [hzero hn, hn]
    rfl
  · exact .inr (head?_append_ne_zero Nat.toDigits_ne_nil (head?_toDigits hn) _)

theorem ofDigitChars_append_zeros (n e : Nat) :
    Nat.ofDigitChars 10 (Nat.toDigits 10 n ++ List.replicate e '0') 0 = n * 10 ^ e := by
  rw [Nat.ofDigitChars_append, Nat.ofDigitChars_ten_toDigits, Nat.ofDigitChars_replicate_zero,
    Nat.mul_comm]

namespace Layout

/-- The layout of an integer. -/
def ofInt (i : Int) : Layout where
  negative := decide (i < 0)
  whole := Nat.toDigits 10 i.natAbs
  places := []
  power := none
  whole_ne_nil := Nat.toDigits_ne_nil
  whole_run := digits_toDigits _
  whole_leading := leading_toDigits _
  places_run := by simp [Digits]

theorem characters_ofInt (i : Int) : (ofInt i).characters = Integer.decimal i := by
  have hunsigned : (ofInt i).unsigned = Nat.toDigits 10 i.natAbs := by
    simp [unsigned, ofInt, fractionCharacters, powerCharacters]
  rw [characters, hunsigned, Integer.decimal, Binary.withSign]
  simp [ofInt]

end Layout

end Numeral

namespace Numeral.Layout

variable {L : Layout}

theorem characters_of_point (hpower : L.power = none) (hplaces : L.places ≠ []) :
    L.characters = Binary.withSign L.negative (L.whole ++ '.' :: L.places) := by
  simp [characters, unsigned, fractionCharacters, powerCharacters, hpower, hplaces]

theorem decimal_of_point (hpower : L.power = none) :
    L.decimal = ⟨Nat.ofDigitChars 10 (L.whole ++ L.places) 0, -L.places.length⟩ := by
  simp [decimal, hpower]

end Numeral.Layout

namespace Decimal

open Numeral

theorem pointed_of_split
    {d : Decimal} {whole places : List Char} (h : d.split = (whole, places))
    (hplaces : places ≠ []) : d.pointed = whole ++ '.' :: places := by
  obtain ⟨c, rest, rfl⟩ := List.exists_cons_of_ne_nil hplaces
  rw [pointed, h]

/-- A decimal without places is written with the zeros up to the point and one after it. -/
theorem exists_layout_pointed_ofNat
    (negative : Bool) {coefficient e : Nat} (hzero : coefficient = 0 → e = 0) :
    ∃ L : Layout, L.characters = Binary.withSign negative (pointed ⟨coefficient, .ofNat e⟩) ∧
      L.negative = negative ∧ L.places ≠ [] ∧
      L.decimal = shift ⟨coefficient, .ofNat e⟩ (e + 1) := by
  let whole := Nat.toDigits 10 coefficient ++ List.replicate e '0'
  have hwhole : whole ≠ [] := by simp [whole]
  have hrun : Digits whole := (digits_toDigits coefficient).append (digits_replicate_zero e)
  have hleading : whole = ['0'] ∨ whole.head? ≠ some '0' := leading_append_zeros hzero
  have hcoefficient : Nat.ofDigitChars 10 (whole ++ ['0']) 0 = coefficient * 10 ^ (e + 1) := by
    have hzeros : List.replicate e '0' ++ ['0'] = List.replicate (e + 1) '0' :=
      List.replicate_succ'.symm
    rw [List.append_assoc, hzeros, ofDigitChars_append_zeros]
  let L : Layout :=
    ⟨negative, whole, ['0'], none, hwhole, hrun, hleading, digits_replicate_zero 1⟩
  refine ⟨L, ?_, rfl, List.cons_ne_nil _ _, ?_⟩
  · rw [L.characters_of_point rfl (List.cons_ne_nil _ _)]
    simp [L, whole, pointed, split]
  · rw [L.decimal_of_point rfl, shift, Decimal.mk.injEq]
    refine ⟨hcoefficient, ?_⟩
    change -((1 : Nat) : Int) = (e : Int) - ((e + 1 : Nat) : Int)
    omega

/-- A decimal with more digits than places is written with the point between two digits. -/
theorem exists_layout_pointed_between
    (negative : Bool) {coefficient e : Nat}
    (hlong : e + 1 < (Nat.toDigits 10 coefficient).length) :
    ∃ L : Layout,
      L.characters = Binary.withSign negative (pointed ⟨coefficient, .negSucc e⟩) ∧
        L.negative = negative ∧ L.places ≠ [] ∧
        L.decimal = shift ⟨coefficient, .negSucc e⟩ 0 := by
  let digits := Nat.toDigits 10 coefficient
  let before := digits.length - (e + 1)
  have hrun : Digits digits := digits_toDigits coefficient
  have hbefore : before ≠ 0 := Nat.sub_ne_zero_of_lt hlong
  have hwhole : digits.take before ≠ [] := by simp [digits, hbefore]
  have hleading : (digits.take before).head? ≠ some '0' := by
    have hc : coefficient ≠ 0 := by
      rintro rfl
      simp at hlong
    rw [List.head?_take, if_neg hbefore]
    exact head?_toDigits hc
  have hlength : (digits.drop before).length = e + 1 := by
    rw [List.length_drop]
    exact Nat.sub_sub_self (Nat.le_of_lt hlong)
  have hplaces : digits.drop before ≠ [] := by
    intro hnil
    simp [hnil] at hlength
  have hsplit : split ⟨coefficient, .negSucc e⟩ = (digits.take before, digits.drop before) := by
    simp only [split]
    rw [if_pos hlong]
  let L : Layout := ⟨negative, digits.take before, digits.drop before, none, hwhole,
    fun c h => hrun c (List.mem_of_mem_take h), .inr hleading,
    fun c h => hrun c (List.mem_of_mem_drop h)⟩
  refine ⟨L, ?_, rfl, hplaces, ?_⟩
  · rw [L.characters_of_point rfl hplaces, pointed_of_split hsplit hplaces]
  · rw [L.decimal_of_point rfl, shift, Decimal.mk.injEq]
    simp [L, hlength, digits]
    omega

/-- A decimal with no more digits than places is written with the point before them all. -/
theorem exists_layout_pointed_before
    (negative : Bool) {coefficient e : Nat}
    (hshort : ¬ e + 1 < (Nat.toDigits 10 coefficient).length) :
    ∃ L : Layout,
      L.characters = Binary.withSign negative (pointed ⟨coefficient, .negSucc e⟩) ∧
        L.negative = negative ∧ L.places ≠ [] ∧
        L.decimal = shift ⟨coefficient, .negSucc e⟩ 0 := by
  let zeros := List.replicate (e + 1 - (Nat.toDigits 10 coefficient).length) '0'
  let places := zeros ++ Nat.toDigits 10 coefficient
  have hplaces : places ≠ [] := by simp [places]
  have hrun : Digits places := (digits_replicate_zero _).append (digits_toDigits coefficient)
  have hlength : places.length = e + 1 := by
    rw [List.length_append, List.length_replicate]
    exact Nat.sub_add_cancel (Nat.not_lt.mp hshort)
  have hcoefficient : Nat.ofDigitChars 10 (['0'] ++ places) 0 = coefficient := by
    have hzero : Nat.ofDigitChars 10 ['0'] 0 = 0 := rfl
    rw [Nat.ofDigitChars_append, Nat.ofDigitChars_append, hzero,
      Nat.ofDigitChars_replicate_zero, Nat.mul_zero, Nat.ofDigitChars_ten_toDigits]
  have hsplit : split ⟨coefficient, .negSucc e⟩ = (['0'], places) := by
    simp only [split]
    rw [if_neg hshort]
  let L : Layout :=
    ⟨negative, ['0'], places, none, List.cons_ne_nil _ _, digits_replicate_zero 1, .inl rfl, hrun⟩
  refine ⟨L, ?_, rfl, hplaces, ?_⟩
  · rw [L.characters_of_point rfl hplaces, pointed_of_split hsplit hplaces]
  · rw [L.decimal_of_point rfl, shift, Decimal.mk.injEq]
    refine ⟨by simpa [L] using hcoefficient, ?_⟩
    simp [L, hlength]
    omega

/-- The layout of a decimal written with a point.  Zero is written without further zeros
before the point. -/
theorem exists_layout_pointed
    (negative : Bool) {d : Decimal} (hzero : d.coefficient = 0 → d = ⟨0, 0⟩) :
    ∃ L : Layout, L.characters = Binary.withSign negative d.pointed ∧
      L.negative = negative ∧ L.places ≠ [] ∧ ∃ k, L.decimal = d.shift k := by
  obtain ⟨coefficient, exponent⟩ := d
  cases exponent with
  | ofNat e =>
      have he : coefficient = 0 → e = 0 := by
        intro hc
        simpa using (Decimal.mk.inj (hzero hc)).2
      obtain ⟨L, hcharacters, hnegative, hplaces, hdecimal⟩ :=
        exists_layout_pointed_ofNat negative he
      exact ⟨L, hcharacters, hnegative, hplaces, e + 1, hdecimal⟩
  | negSucc e =>
      by_cases hlong : e + 1 < (Nat.toDigits 10 coefficient).length
      · obtain ⟨L, hcharacters, hnegative, hplaces, hdecimal⟩ :=
          exists_layout_pointed_between negative hlong
        exact ⟨L, hcharacters, hnegative, hplaces, 0, hdecimal⟩
      · obtain ⟨L, hcharacters, hnegative, hplaces, hdecimal⟩ :=
          exists_layout_pointed_before negative hlong
        exact ⟨L, hcharacters, hnegative, hplaces, 0, hdecimal⟩

/-- The layout of a decimal written with an exponent. -/
theorem exists_layout_scientific (negative : Bool) (d : Decimal) :
    ∃ L : Layout, L.characters = Binary.withSign negative d.scientific ∧
      L.negative = negative ∧ L.power.isSome ∧ L.decimal = d := by
  obtain ⟨c, rest, hdigits⟩ :=
    List.exists_cons_of_ne_nil (Nat.toDigits_ne_nil (n := d.coefficient) (b := 10))
  have hrun : Digits (c :: rest) := hdigits ▸ digits_toDigits d.coefficient
  have hvalue : Nat.ofDigitChars 10 (c :: rest) 0 = d.coefficient := by
    rw [← hdigits, Nat.ofDigitChars_ten_toDigits]
  have hleading : [c] = ['0'] ∨ [c].head? ≠ some '0' := by
    by_cases hc : c = '0'
    · exact .inl (by rw [hc])
    · exact .inr (by simpa using hc)
  let power : Power := ⟨decide (d.magnitude < 0), Nat.toDigits 10 d.magnitude.natAbs,
    Nat.toDigits_ne_nil, digits_toDigits _⟩
  have hpower : power.value = d.magnitude := by
    simp only [power, Power.value, Binary.signed, Nat.ofDigitChars_ten_toDigits,
      decide_eq_true_eq]
    split <;> omega
  let L : Layout := ⟨negative, [c], rest, some power, List.cons_ne_nil _ _,
    fun x hx => hrun x (by simp_all), hleading, fun x hx => hrun x (by simp [hx])⟩
  refine ⟨L, ?_, rfl, rfl, ?_⟩
  · -- The point is left out exactly where the leading digit is the only one.
    cases rest <;>
      simp [L, Layout.characters, Layout.unsigned, Layout.fractionCharacters,
        Layout.powerCharacters, scientific, hdigits, Power.characters, power]
  · have hmagnitude : d.magnitude = rest.length + d.exponent := by
      simp [magnitude, hdigits]
    have hexponent : power.value - rest.length = d.exponent := by
      omega
    exact congr (congrArg Decimal.mk hvalue) hexponent

end Decimal

end Criteria
