import Criteria.Proofs.Conversion
import Criteria.Proofs.Number.Spelling
import Criteria.Proofs.Text.Blank
import Mathlib.Algebra.Group.Int.Defs

/-!
# Texts that convert to integers

A text converts to an integer if a sign and decimal digits are all that is left of it without
the blanks around it, and the integer that they spell is within the range.  Every other text is
refused, and the error holds the text as it was given, with its blanks.
-/

namespace Criteria

namespace Value

theorem toInt_text_eq_ok_iff {s : String} {i : Integer .i64} :
    (Value.text s).toInt = .ok i ↔ Integer.read (Text.trim s.toList) = .ok i :=
  mapError_eq_ok_iff

/-- The text without the blanks around it spells the integer. -/
def TextSpells (s : String) (n : Int) : Prop :=
  ∃ body, Text.Trims s.toList body ∧ Integer.Spells body n

theorem convert_text_int_eq_ok_iff {s : String} {i : Integer .i64} :
    (Value.text s).convert .int = .ok (.int i) ↔ TextSpells s i.val := by
  rw [convert_int_eq_ok_iff]
  simp only [toInt_text_eq_ok_iff, Integer.read_eq_ok_iff, Value.int.injEq, exists_eq_right,
    TextSpells, Text.trims_iff, exists_eq_left']

/-- A conversion to an integer that succeeds gives a value of the kind of integers. -/
theorem exists_int_of_convert {v w : Value} (h : v.convert .int = .ok w) : ∃ i, w = .int i := by
  obtain ⟨i, -, rfl⟩ := convert_int_eq_ok_iff.mp h
  exact ⟨i, rfl⟩

/-- Whether and to what a text converts depends only on what is left of it without the blanks
around it. -/
theorem convert_int_congr_of_trim {s t : String} (h : Text.trim s.toList = Text.trim t.toList)
    (w : Value) : (Value.text s).convert .int = .ok w ↔ (Value.text t).convert .int = .ok w := by
  simp only [convert_int_eq_ok_iff, toInt_text_eq_ok_iff, h]

/-- A text converts to an integer exactly if it spells one between blanks, by an optional sign
and decimal digits, that is within the range; the result is that integer.  For every other text
the error holds the text as it was given.  Blanks around a text make no difference to whether it
converts and to what. -/
theorem texts_convert_as_spelled :
    (∀ (s : String) (n : Int),
      (∃ i : Integer .i64, (Value.text s).convert .int = .ok (.int i) ∧ i.val = n) ↔
        TextSpells s n ∧ -2 ^ 63 ≤ n ∧ n ≤ 2 ^ 63 - 1) ∧
    (∀ s : String, (∀ n, TextSpells s n → ¬ (-2 ^ 63 ≤ n ∧ n ≤ 2 ^ 63 - 1)) →
      ∃ fault, (Value.text s).convert .int = .error ⟨.text s, .int, fault⟩) ∧
    ∀ before s after : String, Text.Blank before.toList → Text.Blank after.toList →
      ∀ w, (Value.text (before ++ s ++ after)).convert .int = .ok w ↔
        (Value.text s).convert .int = .ok w := by
  refine ⟨?_, ?_, ?_⟩
  · intro s n
    constructor
    · rintro ⟨i, hi, rfl⟩
      exact ⟨convert_text_int_eq_ok_iff.mp hi, i.least_le, i.le_greatest⟩
    · rintro ⟨hspells, hleast, hgreatest⟩
      exact ⟨⟨n, hleast, hgreatest⟩, convert_text_int_eq_ok_iff.mpr hspells, rfl⟩
  · intro s hnone
    cases hconvert : (Value.text s).convert .int with
    | ok w =>
        obtain ⟨i, rfl⟩ := exists_int_of_convert hconvert
        exact absurd ⟨i.least_le, i.le_greatest⟩
          (hnone i.val (convert_text_int_eq_ok_iff.mp hconvert))
    | error e => exact ⟨e.fault, congrArg Except.error (error_of_convert hconvert)⟩
  · intro before s after hbefore hafter w
    refine convert_int_congr_of_trim ?_ w
    rw [String.toList_append, String.toList_append]
    exact Text.trim_append_blank hbefore hafter s.toList

/-- The least integer is read with leading zeros and blanks around it, and the one below it is
refused. -/
theorem texts_convert_as_spelled_least :
    (∃ i : Integer .i64, i.val = -2 ^ 63 ∧
      (Value.text ("\u3000\t" ++ "-009223372036854775808" ++ "\u00a0\n")).convert .int =
        .ok (.int i)) ∧
    ∃ fault, (Value.text " -9223372036854775809").convert .int =
      .error ⟨.text " -9223372036854775809", .int, fault⟩ := by
  obtain ⟨hspelled, hrefused, hblanks⟩ := texts_convert_as_spelled
  constructor
  · have hbare : Text.trim "-009223372036854775808".toList = "-009223372036854775808".toList := rfl
    have hdigits : Numeral.Digits "009223372036854775808".toList := List.all_eq_true.mp rfl
    have hspells : TextSpells "-009223372036854775808" (-2 ^ 63) :=
      ⟨_, Text.trims_iff.mpr hbare, Integer.Spells.minus (by decide) hdigits⟩
    obtain ⟨i, hi, hval⟩ := (hspelled _ _).mpr ⟨hspells, by decide⟩
    refine ⟨i, hval, (hblanks _ _ _ ?_ ?_ _).mpr hi⟩
    · exact List.all_eq_true.mp rfl
    · exact List.all_eq_true.mp rfl
  · refine hrefused _ ?_
    intro n hspells hrange
    obtain ⟨i, hi, -⟩ := (hspelled _ n).mpr ⟨hspells, hrange⟩
    cases hi

end Value

end Criteria
