import Criteria.Number.Numeral
import Criteria.Proofs.Text.Run

/-!
# The layout of a numeral

A numeral is laid out as a sign, the digits before the point, the digits after it, and the
digits of an exponent.  A layout keeps these parts together with what makes them readable:
there is a digit before the point, and no superfluous zero in front of it.  What a printer
writes is described by its layout, and what a reader makes of it is said once for all
layouts.
-/

namespace Criteria

namespace Numeral

/-- A run of decimal digits. -/
def Digits (run : List Char) : Prop :=
  ∀ c ∈ run, c.isDigit = true

/-- No digit comes next. -/
def EndsRun (rest : List Char) : Prop :=
  ∀ c, rest.head? = some c → c.isDigit = false

theorem Digits.append {first second : List Char} (hfirst : Digits first)
    (hsecond : Digits second) : Digits (first ++ second) := by
  intro c hc
  rcases List.mem_append.mp hc with hc | hc
  · exact hfirst c hc
  · exact hsecond c hc

theorem EndsRun.append {first rest : List Char} (hfirst : EndsRun first) (hrest : EndsRun rest) :
    EndsRun (first ++ rest) := by
  cases first with
  | nil => exact hrest
  | cons c first => exact hfirst

theorem takeWhile_run {run rest : List Char} (hrun : Digits run) (hrest : EndsRun rest) :
    (run ++ rest).takeWhile Char.isDigit = run :=
  Text.takeWhile_run hrun hrest

theorem dropWhile_run {run rest : List Char} (hrun : Digits run) (hrest : EndsRun rest) :
    (run ++ rest).dropWhile Char.isDigit = rest :=
  Text.dropWhile_run hrun hrest

theorem digits?_of_digits {run : List Char} (hne : run ≠ []) (hrun : Digits run) :
    digits? run = some (Nat.ofDigitChars 10 run 0) := by
  have hall : (!run.isEmpty && run.all Char.isDigit) = true := by
    rw [Bool.and_eq_true, List.all_eq_true]
    exact ⟨by simpa using hne, hrun⟩
  rw [digits?, if_pos hall]

/-- The sign and the digits of an exponent. -/
structure Power where
  negative : Bool
  digits : List Char
  digits_ne_nil : digits ≠ []
  digits_run : Digits digits

namespace Power

/-- The exponent as it is written. -/
def characters (p : Power) : List Char :=
  'e' :: (if p.negative then '-' else '+') :: p.digits

/-- The exponent as a number. -/
def value (p : Power) : Int :=
  Binary.signed p.negative (Nat.ofDigitChars 10 p.digits 0)

theorem exponent?_characters (p : Power) : exponent? p.characters = some p.value := by
  obtain ⟨negative, digits, hne, hrun⟩ := p
  cases negative <;>
    simp [characters, exponent?, sign, digits?_of_digits hne hrun, value, Binary.signed]

end Power

/-- The parts of a written numeral.  A point is written only before digits. -/
structure Layout where
  negative : Bool
  whole : List Char
  places : List Char
  power : Option Power
  whole_ne_nil : whole ≠ []
  whole_run : Digits whole
  whole_leading : whole = ['0'] ∨ whole.head? ≠ some '0'
  places_run : Digits places

namespace Layout

variable (L : Layout)

/-- The point and the digits after it. -/
def fractionCharacters : List Char :=
  if L.places = [] then [] else '.' :: L.places

/-- The exponent, if there is one. -/
def powerCharacters : List Char :=
  (L.power.map Power.characters).getD []

/-- The numeral without its sign. -/
def unsigned : List Char :=
  L.whole ++ (L.fractionCharacters ++ L.powerCharacters)

/-- The numeral as it is written. -/
def characters : List Char :=
  Binary.withSign L.negative L.unsigned

/-- The decimal that the numeral stands for, without its sign. -/
def decimal : Decimal where
  coefficient := Nat.ofDigitChars 10 (L.whole ++ L.places) 0
  exponent := (L.power.map Power.value).getD 0 - L.places.length

theorem endsRun_powerCharacters : EndsRun L.powerCharacters := by
  rw [EndsRun, powerCharacters]
  cases L.power with
  | none => simp
  | some p =>
      intro c hc
      obtain rfl : 'e' = c := Option.some.inj hc
      rfl

theorem endsRun_fractionCharacters : EndsRun (L.fractionCharacters ++ L.powerCharacters) := by
  rw [fractionCharacters]
  by_cases hplaces : L.places = []
  · rw [if_pos hplaces]
    exact L.endsRun_powerCharacters
  · rw [if_neg hplaces]
    intro c hc
    obtain rfl : '.' = c := Option.some.inj hc
    rfl

theorem exponent?_powerCharacters :
    exponent? L.powerCharacters = some ((L.power.map Power.value).getD 0) := by
  rw [powerCharacters]
  cases L.power with
  | none => rfl
  | some p => exact p.exponent?_characters

theorem fraction_fractionCharacters :
    fraction (L.fractionCharacters ++ L.powerCharacters) = (L.places, L.powerCharacters) := by
  rw [fractionCharacters]
  by_cases hplaces : L.places = []
  · rw [if_pos hplaces, hplaces, List.nil_append, powerCharacters]
    cases L.power <;> rfl
  · rw [if_neg hplaces, List.cons_append, fraction,
      takeWhile_run L.places_run L.endsRun_powerCharacters,
      dropWhile_run L.places_run L.endsRun_powerCharacters]

theorem magnitude?_unsigned : magnitude? L.unsigned = some L.decimal := by
  have hne : L.whole ++ L.places ≠ [] := by simp [L.whole_ne_nil]
  have hdigits := digits?_of_digits hne (L.whole_run.append L.places_run)
  rw [magnitude?, unsigned, takeWhile_run L.whole_run L.endsRun_fractionCharacters,
    dropWhile_run L.whole_run L.endsRun_fractionCharacters]
  simp only [fraction_fractionCharacters, hdigits, exponent?_powerCharacters]
  rfl

/-- A numeral without its sign begins with a digit. -/
theorem exists_unsigned_eq_cons : ∃ c rest, L.unsigned = c :: rest ∧ c.isDigit = true := by
  obtain ⟨c, rest, hwhole⟩ := List.exists_cons_of_ne_nil L.whole_ne_nil
  refine ⟨c, rest ++ (L.fractionCharacters ++ L.powerCharacters), ?_, ?_⟩
  · rw [unsigned, hwhole, List.cons_append]
  · exact L.whole_run c (by simp [hwhole])

theorem characters_ne_nil : L.characters ≠ [] := by
  obtain ⟨c, rest, hunsigned, -⟩ := L.exists_unsigned_eq_cons
  rw [characters, Binary.withSign, hunsigned]
  split <;> simp

theorem sign_characters : sign L.characters = (L.negative, L.unsigned) := by
  obtain ⟨c, rest, hunsigned, hdigit⟩ := L.exists_unsigned_eq_cons
  rw [characters, Binary.withSign, hunsigned]
  cases L.negative with
  | true => rfl
  | false =>
      have hminus : c ≠ '-' := by
        rintro rfl
        cases hdigit
      have hplus : c ≠ '+' := by
        rintro rfl
        cases hdigit
      simp [sign, hminus, hplus]

end Layout

end Numeral

namespace Binary

variable {F : Format}

theorem toLower_of_isDigit {c : Char} (h : c.isDigit = true) : c.toLower = c := by
  have hupper : ¬ (c.val ≥ 'A'.val ∧ c.val ≤ 'Z'.val) := by
    rintro ⟨hletter, -⟩
    have hdigit : c.val ≤ '9'.val := by
      rw [Char.isDigit, Bool.and_eq_true] at h
      exact of_decide_eq_true h.2
    exact absurd (UInt32.le_trans hletter hdigit) (by decide)
  exact dif_neg hupper

/-- The words for infinity and NaN do not begin with a digit. -/
theorem word_ne_of_isDigit {c : Char} (rest : List Char) (h : c.isDigit = true) :
    ∀ word ∈ ["inf", "infinity", "nan"],
      String.ofList ((c :: rest).map Char.toLower) ≠ word := by
  have hletters : ∀ word ∈ ["inf", "infinity", "nan"],
      word.toList.head?.any Char.isDigit = false := by
    decide
  intro word hword heq
  have hhead : word.toList.head? = some c := by
    rw [← heq]
    simp [toLower_of_isDigit h]
  have hletter := hletters word hword
  rw [hhead, Option.any_some, h] at hletter
  cases hletter

theorem read_of_ne_nil {s : List Char} (h : s ≠ []) :
    (read s : Except NumeralFault (Binary F)) =
      let word := String.ofList ((Numeral.sign s).2.map Char.toLower)
      if word == "inf" || word == "infinity" then .ok (.infinity (Numeral.sign s).1)
      else if word == "nan" then .ok .nan
      else match Numeral.magnitude? (Numeral.sign s).2 with
        | some d => .ok (ofDecimal (Numeral.sign s).1 d)
        | none => .error .invalid := by
  cases s with
  | nil => exact absurd rfl h
  | cons c rest => rfl

/-- What is read from a numeral is the number nearest to the decimal that it stands for. -/
theorem read_characters (L : Numeral.Layout) :
    (read L.characters : Except NumeralFault (Binary F)) =
      .ok (ofDecimal L.negative L.decimal) := by
  obtain ⟨c, rest, hunsigned, hdigit⟩ := L.exists_unsigned_eq_cons
  have hword := word_ne_of_isDigit rest hdigit
  rw [← hunsigned] at hword
  have hinf := hword "inf" (by simp)
  have hinfinity := hword "infinity" (by simp)
  have hnan := hword "nan" (by simp)
  rw [read_of_ne_nil L.characters_ne_nil]
  simp only [L.sign_characters, beq_eq_false_iff_ne.mpr hinf,
    beq_eq_false_iff_ne.mpr hinfinity, beq_eq_false_iff_ne.mpr hnan, Bool.or_self,
    Bool.false_eq_true, if_false, L.magnitude?_unsigned]

end Binary

end Criteria
