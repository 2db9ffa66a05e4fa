import Criteria.Proofs.Number.Shortest
import Criteria.Proofs.Number.Written

/-!
# The text of a number determines the number

A number is written with the fewest digits that read back, and with a point only if digits
follow it.  Reading the text gives the number again, so two numbers of one text are the
same.  The text has no characters but digits, signs, points and the letters of the words for
infinity and NaN.
-/

namespace Criteria

/-- Letters, digits, the minus sign and the point, of which unquoted constants consist. -/
def Text.inToken (c : Char) : Bool :=
  c.isAlphanum || c == '-' || c == '.'

theorem Text.inToken_of_isDigit {c : Char} (h : c.isDigit = true) : inToken c = true := by
  simp [inToken, Char.isAlphanum, h]

namespace Decimal

open Numeral
open Text (inToken inToken_of_isDigit)

theorem plain_of_split
    {d : Decimal} {whole places : List Char} (h : d.split = (whole, places))
    (hplaces : places ≠ []) : d.plain = whole ++ '.' :: places := by
  obtain ⟨c, rest, rfl⟩ := List.exists_cons_of_ne_nil hplaces
  rw [plain, h]

/-- Where there are places, both positional texts are the same. -/
theorem plain_negSucc (coefficient e : Nat) :
    plain ⟨coefficient, .negSucc e⟩ = pointed ⟨coefficient, .negSucc e⟩ := by
  have hplaces : (split ⟨coefficient, .negSucc e⟩).2 ≠ [] := by
    simp only [split]
    split
    next hlong =>
      intro hnil
      have hlength := congrArg List.length hnil
      simp at hlength
      omega
    next => simp
  rw [plain_of_split (Prod.eta _).symm hplaces, pointed_of_split (Prod.eta _).symm hplaces]

/-- A decimal without places is written with the zeros up to the point. -/
theorem exists_layout_plain_ofNat
    (negative : Bool) {coefficient e : Nat} (hzero : coefficient = 0 → e = 0) :
    ∃ L : Layout, L.characters = Binary.withSign negative (plain ⟨coefficient, .ofNat e⟩) ∧
      L.negative = negative ∧ L.decimal = shift ⟨coefficient, .ofNat e⟩ e := by
  let L : Layout :=
    ⟨negative, Nat.toDigits 10 coefficient ++ List.replicate e '0', [], none, by simp,
      (digits_toDigits coefficient).append (digits_replicate_zero e), leading_append_zeros hzero,
      by simp [Digits]⟩
  refine ⟨L, ?_, rfl, ?_⟩
  · simp [L, Layout.characters, Layout.unsigned, Layout.fractionCharacters,
      Layout.powerCharacters, plain, split]
  · rw [L.decimal_of_point rfl, shift, Decimal.mk.injEq]
    constructor
    · simp only [L, List.append_nil]
      exact ofDigitChars_append_zeros coefficient e
    · simp [L]

/-- The layout of a decimal written with a point only before digits.  Zero is written
without further zeros. -/
theorem exists_layout_plain
    (negative : Bool) {d : Decimal} (hzero : d.coefficient = 0 → d = ⟨0, 0⟩) :
    ∃ L : Layout, L.characters = Binary.withSign negative d.plain ∧
      L.negative = negative ∧ ∃ k, L.decimal = d.shift k := by
  obtain ⟨coefficient, exponent⟩ := d
  cases exponent with
  | ofNat e =>
      have he : coefficient = 0 → e = 0 := by
        intro hc
        simpa using (Decimal.mk.inj (hzero hc)).2
      obtain ⟨L, hcharacters, hnegative, hdecimal⟩ := exists_layout_plain_ofNat negative he
      exact ⟨L, hcharacters, hnegative, e, hdecimal⟩
  | negSucc e =>
      obtain ⟨L, hcharacters, hnegative, -, hdecimal⟩ := exists_layout_pointed negative hzero
      rw [plain_negSucc]
      exact ⟨L, hcharacters, hnegative, hdecimal⟩

theorem digits_split (d : Decimal) : Digits d.split.1 ∧ Digits d.split.2 := by
  obtain ⟨coefficient, exponent⟩ := d
  have hdigits := digits_toDigits coefficient
  cases exponent with
  | ofNat e => exact ⟨hdigits.append (digits_replicate_zero e), by simp [split, Digits]⟩
  | negSucc e =>
      simp only [split]
      split
      next =>
        exact ⟨fun c hc => hdigits c (List.mem_of_mem_take hc),
          fun c hc => hdigits c (List.mem_of_mem_drop hc)⟩
      next =>
        exact ⟨digits_replicate_zero 1, (digits_replicate_zero _).append hdigits⟩

theorem inToken_of_mem_plain {d : Decimal} : ∀ c ∈ d.plain, inToken c = true := by
  intro c hc
  obtain ⟨hwhole, hplaces⟩ := d.digits_split
  by_cases hnil : d.split.2 = []
  · have hplain : d.plain = d.split.1 := by
      rw [plain]
      split <;> simp_all
    rw [hplain] at hc
    exact inToken_of_isDigit (hwhole c hc)
  · rw [plain_of_split (Prod.eta _).symm hnil] at hc
    rcases List.mem_append.mp hc with hc | hc
    · exact inToken_of_isDigit (hwhole c hc)
    · rcases List.mem_cons.mp hc with rfl | hc
      · rfl
      · exact inToken_of_isDigit (hplaces c hc)

end Decimal

namespace Binary

variable {F : Format}

theorem inToken_of_mem_withSign
    {negative : Bool} {magnitude : List Char}
    (h : ∀ c ∈ magnitude, Text.inToken c = true) :
    ∀ c ∈ withSign negative magnitude, Text.inToken c = true := by
  cases negative with
  | true => exact List.forall_mem_cons.mpr ⟨rfl, h⟩
  | false => exact h

/-- A number is read back from its text. -/
theorem read_text (x : Binary F) : read x.text = .ok x := by
  cases x with
  | nan => rfl
  | infinity negative => cases negative <;> rfl
  | finite negative units hunits =>
      have hzero : (Decimal.shortest F .up units).coefficient = 0 →
          Decimal.shortest F .up units = ⟨0, 0⟩ :=
        Decimal.shortest_of_coefficient_eq_zero hunits
      obtain ⟨L, hcharacters, hnegative, k, hdecimal⟩ :=
        Decimal.exists_layout_plain negative hzero
      rw [text, ← hcharacters, read_characters, hnegative, hdecimal, ofDecimal_shift,
        Decimal.ofDecimal_shortest .up hunits negative]

/-- Numbers of one text are the same. -/
theorem text_injective : Function.Injective (text (F := F)) := by
  intro x y h
  have hread : (read x.text : Except NumeralFault (Binary F)) = read y.text := congrArg read h
  rw [read_text, read_text] at hread
  exact Except.ok.inj hread

theorem inToken_of_mem_text (x : Binary F) : ∀ c ∈ x.text, Text.inToken c = true := by
  cases x with
  | nan => exact List.all_eq_true.mp rfl
  | infinity negative => exact inToken_of_mem_withSign (List.all_eq_true.mp rfl)
  | finite negative units hunits => exact inToken_of_mem_withSign Decimal.inToken_of_mem_plain

end Binary

end Criteria
